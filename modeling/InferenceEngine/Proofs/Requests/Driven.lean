import InferenceEngine.Proofs.Requests.Callbacks
import InferenceEngine.Proofs.Runs.Frames

/-!
# What drives requests

An open request has a job in the queue, waits for a slot while another open request of its server
has one, or waits at a gate that is not closed.  This holds whenever nobody has a turn, and
whatever a request does in its turn, it holds again in the end.  What the request does costs some
of the work that is left.
-/

namespace InferenceEngine

def Phase.isReady : Phase -> Bool
  | .accepted | .granted | .letThrough .. => true
  | _ => false

theorem Phase.isOpen_of_isReady {p : Phase} (h : p.isReady = true) : p.isOpen = true := by
  cases p <;> first | rfl | cases h

theorem Phase.isOpen_of_holdsSlot {p : Phase} (h : p.holdsSlot = true) : p.isOpen = true := by
  cases p <;> first | rfl | cases h

namespace Engine

/-!
# The queue

Who is given a slot goes on.
-/

theorem mem_queue_wake {e : Engine} {jobs : List Job} {j : Job} :
    j ∈ (e.wake jobs).queue ↔ j ∈ e.queue ∨ j ∈ jobs := by
  simp only [Engine.queue, wake, List.mem_append]
  tauto

theorem mem_queue_start {e : Engine} {jobs : List Job} {j : Job} :
    j ∈ (e.start jobs).queue ↔ j ∈ e.queue ∨ j ∈ jobs := by
  simp only [Engine.queue, start, List.mem_append]
  tauto

theorem length_queue_wake (e : Engine) (jobs : List Job) :
    (e.wake jobs).queue.length = e.queue.length + jobs.length := by
  simp only [Engine.queue, wake, List.length_append]
  omega

theorem queue_dequeue (e : Engine) (position : Nat) :
    (e.dequeue position).queue = e.queue.eraseIdx position := by
  unfold dequeue Engine.queue
  split
  · rename_i hlt
    rw [List.eraseIdx_append_of_lt_length hlt]
  · rename_i hge
    rw [List.eraseIdx_append_of_length_le (Nat.le_of_not_lt hge)]

theorem queue_callBack (e : Engine) (n : Nat) (taken? : Option Nat) (response : Response) :
    (e.callBack n taken? response).queue = e.queue := by
  simp only [callBack, hand]
  split <;> rfl

theorem mem_queue_countOut {e : Engine} {j : Job} (h : j ∈ e.queue) (k : Nat) :
    j ∈ (e.countOut k).queue := by
  simp only [countOut]
  split
  · exact mem_queue_wake.2 (.inl h)
  · exact h

theorem length_queue_countOut (e : Engine) (k : Nat) :
    (e.countOut k).queue.length ≤ e.queue.length + e.stops.length := by
  simp only [countOut]
  split
  · unfold wakeStops
    rw [length_queue_wake]
    apply Nat.add_le_add_left
    refine Nat.le_trans (List.length_filterMap_le _ _) ?_
    rw [List.length_range]
    exact Nat.le_refl _
  · exact Nat.le_add_right _ _

theorem mem_queue_releaseSlot {e : Engine} {j : Job} (h : j ∈ e.queue) (k : Nat) :
    j ∈ (e.releaseSlot k).queue := by
  unfold releaseSlot
  split
  · exact h
  · exact mem_queue_wake.2 (.inl h)

theorem mem_queue_of_head {e : Engine} {k m : Nat} (h : (e.server k).waiting.head? = some m) :
    Job.request m ∈ (e.releaseSlot k).queue := by
  unfold releaseSlot
  split
  · rename_i hwaiting
    rw [hwaiting] at h
    cases h
  · rename_i first rest hwaiting
    rw [hwaiting] at h
    cases h
    exact mem_queue_wake.2 (.inr (List.mem_singleton_self _))

theorem length_queue_releaseSlot (e : Engine) (k : Nat) :
    (e.releaseSlot k).queue.length ≤ e.queue.length + 1 := by
  unfold releaseSlot
  split
  · exact Nat.le_succ _
  · rw [length_queue_wake]
    exact Nat.le_refl _

theorem freeSlots_releaseSlot (e : Engine) (k m : Nat) :
    ((e.releaseSlot k).server m).freeSlots =
      if (m = k ∧ k < e.servers.length) ∧ (e.server k).waiting = [] then
        (e.server m).freeSlots + 1
      else (e.server m).freeSlots := by
  unfold releaseSlot
  split
  · rename_i hwaiting
    rw [server_modifyServer]
    by_cases hm : m = k ∧ k < e.servers.length
    · rw [if_pos hm, if_pos ⟨hm, hwaiting⟩, hm.1]
    · rw [if_neg hm, if_neg fun hboth => hm hboth.1]
  · rename_i first rest hwaiting
    have hsome : ¬ ((m = k ∧ k < e.servers.length) ∧ (e.server k).waiting = []) := by
      rw [hwaiting]
      exact fun hboth => List.cons_ne_nil _ _ hboth.2
    rw [if_neg hsome]
    show ((e.modifyServer k _).server m).freeSlots = _
    rw [server_modifyServer]
    split
    · rename_i hm
      rw [hm.1]
    · rfl

/-!
# What drives requests

The turn of a request is over when it neither goes on nor can.
-/

/-- Whether each open request is driven on by something: by its job, while nobody but perhaps one
has a turn; by another request that has a slot; or by the gate, which lets some pass. -/
structure Driven (e : Engine) (turn : Option Nat) (passing : List Nat) : Prop where
  lined : e.Lined
  ready : forall m : Nat, (e.submission m).phase.isReady = true ->
    turn = some m ∨ Job.request m ∈ e.queue
  active : forall (m : Nat) (held : List OutputSlot) (next : Behaviour),
    (e.submission m).phase = .inBackend held next -> turn = some m
  atGate : forall (m : Nat) (held : List OutputSlot) (resume : Bool -> Behaviour),
    (e.submission m).phase = .atGate held resume ->
      m ∈ passing ∨ m ∈ e.gate.waiting ∧ e.gate.isClosed = false
  waits : forall m : Nat, (e.submission m).phase = .waiting ->
    m ∈ (e.server (e.submission m).server).waiting
  full : forall k : Nat, (e.server k).waiting ≠ [] -> (e.server k).freeSlots = 0
  held : forall k : Nat, k < e.servers.length -> (e.server k).freeSlots = 0 ->
    exists m : Nat, (e.submission m).server = k ∧ (e.submission m).phase.holdsSlot = true

variable {e e' : Engine} {turn : Option Nat} {passing : List Nat} {n : Nat}

theorem driven_empty : empty.Driven none [] where
  lined := lined_empty
  ready m hm := by cases hm
  active m held next hm := by cases hm
  atGate m held resume hm := by cases hm
  waits m hm := by cases hm
  full k hk := absurd rfl hk
  held k hk := by cases hk

theorem Driven.of_parts (h : e.Driven turn passing)
    (hservers : forall k : Nat, (e'.server k).waiting = (e.server k).waiting ∧
      (e'.server k).freeSlots = (e.server k).freeSlots)
    (hlength : e'.servers.length = e.servers.length)
    (hsubmissions : forall m : Nat, (e'.submission m).server = (e.submission m).server ∧
      (e'.submission m).phase = (e.submission m).phase)
    (hqueue : forall j : Job, j ∈ e.queue -> j ∈ e'.queue) (hgate : e'.gate = e.gate) :
    e'.Driven turn passing where
  lined k := by
    rw [(hservers k).1]
    constructor
    · exact (h.lined k).1
    · intro m hm
      rw [(hsubmissions m).1, (hsubmissions m).2]
      exact (h.lined k).2 m hm
  ready m hm := by
    rw [(hsubmissions m).2] at hm
    exact (h.ready m hm).imp_right (hqueue _)
  active m held next hm := by
    rw [(hsubmissions m).2] at hm
    exact h.active m held next hm
  atGate m held resume hm := by
    rw [(hsubmissions m).2] at hm
    rw [hgate]
    exact h.atGate m held resume hm
  waits m hm := by
    rw [(hsubmissions m).2] at hm
    rw [(hservers _).1, (hsubmissions m).1]
    exact h.waits m hm
  full k hk := by
    rw [(hservers k).1] at hk
    rw [(hservers k).2]
    exact h.full k hk
  held k hk hfree := by
    rw [hlength] at hk
    rw [(hservers k).2] at hfree
    rcases h.held k hk hfree with ⟨m, hown, hholds⟩
    refine ⟨m, ?_, ?_⟩
    · rw [(hsubmissions m).1]
      exact hown
    · rw [(hsubmissions m).2]
      exact hholds

theorem Driven.of_same (h : e.Driven turn passing) (hservers : e'.servers = e.servers)
    (hsubmissions : e'.submissions = e.submissions)
    (hqueue : forall j : Job, j ∈ e.queue -> j ∈ e'.queue) (hgate : e'.gate = e.gate) :
    e'.Driven turn passing := by
  refine h.of_parts ?_ (congrArg List.length hservers) ?_ hqueue hgate
  · intro k
    rw [server_of_servers hservers]
    exact ⟨rfl, rfl⟩
  · intro m
    rw [submission_of_submissions hsubmissions]
    exact ⟨rfl, rfl⟩

theorem Manages.driven (h : e.Manages e') (k : e.Driven turn passing) :
    e'.Driven turn passing := by
  refine k.of_parts ?_ h.length ?_ ?_ h.gate
  · intro j
    rw [h.server j]
    exact ⟨rfl, rfl⟩
  · intro m
    rw [submission_of_submissions h.submissions]
    exact ⟨rfl, rfl⟩
  · intro j hj
    unfold Engine.queue
    rw [h.woken, h.started]
    exact hj

theorem Driven.rest (h : e.Driven (some n) passing)
    (hready : (e.submission n).phase.isReady = false)
    (hactive : forall (held : List OutputSlot) (next : Behaviour),
      (e.submission n).phase ≠ .inBackend held next) : e.Driven none passing where
  lined := h.lined
  ready m hm := by
    rcases h.ready m hm with hturn | hqueue
    · rw [Option.some.inj hturn, hm] at hready
      cases hready
    · exact .inr hqueue
  active m held next hm := by
    have hturn := h.active m held next hm
    rw [← Option.some.inj hturn] at hm
    exact absurd hm (hactive held next)
  atGate := h.atGate
  waits := h.waits
  full := h.full
  held := h.held

theorem Driven.setPhase (h : e.Driven turn passing) {old p : Phase}
    (hn : (e.submission n).phase = old) (hold : old ≠ .waiting) (hp : p ≠ .waiting)
    (hslot : old.holdsSlot = true -> p.holdsSlot = true)
    (hready : p.isReady = true -> turn = some n ∨ Job.request n ∈ e.queue)
    (hactive : forall (held : List OutputSlot) (next : Behaviour),
      p = .inBackend held next -> turn = some n)
    (hgate : forall (held : List OutputSlot) (resume : Bool -> Behaviour),
      p = .atGate held resume -> n ∈ passing ∨ n ∈ e.gate.waiting ∧ e.gate.isClosed = false) :
    (e.setPhase n p).Driven turn passing := by
  have hphase : forall m : Nat, ((e.setPhase n p).submission m).phase = (e.submission m).phase ∨
      m = n ∧ ((e.setPhase n p).submission m).phase = p := by
    intro m
    rw [submission_setPhase]
    split
    · rename_i hm
      exact .inr ⟨hm.1, rfl⟩
    · exact .inl rfl
  constructor
  · exact h.lined.setPhase hn hold
  · intro m hm
    rcases hphase m with hsame | ⟨hself, hnew⟩
    · rw [hsame] at hm
      exact h.ready m hm
    · rw [hnew] at hm
      rw [hself]
      exact hready hm
  · intro m held next hm
    rcases hphase m with hsame | ⟨hself, hnew⟩
    · rw [hsame] at hm
      exact h.active m held next hm
    · rw [hnew] at hm
      rw [hself]
      exact hactive held next hm
  · intro m held resume hm
    rcases hphase m with hsame | ⟨hself, hnew⟩
    · rw [hsame] at hm
      exact h.atGate m held resume hm
    · rw [hnew] at hm
      rw [hself]
      exact hgate held resume hm
  · intro m hm
    rcases hphase m with hsame | ⟨hself, hnew⟩
    · rw [hsame] at hm
      rw [server_of_submission_setPhase]
      exact h.waits m hm
    · rw [hnew] at hm
      exact absurd hm hp
  · exact h.full
  · intro k hk hfree
    rcases h.held k hk hfree with ⟨m, hown, hholds⟩
    refine ⟨m, ?_, ?_⟩
    · rw [server_of_submission_setPhase]
      exact hown
    · rcases hphase m with hsame | ⟨hself, hnew⟩
      · rw [hsame]
        exact hholds
      · rw [hself, hn] at hholds
        rw [hnew]
        exact hslot hholds

/-!
# Answers

A slot that is given back goes to the first one that waits, or it is free.
-/

theorem Lined.ne_head (h : e.Lined) {k m : Nat} (hn : (e.submission n).phase ≠ .waiting)
    (hm : (e.server k).waiting.head? = some m) : m ≠ n := by
  intro hsame
  rw [hsame] at hm
  exact hn ((h k).2 n (List.mem_of_mem_head? hm)).2

theorem Driven.without (h : e.Driven turn passing) (hturn : turn = none ∨ turn = some n)
    (hlined : e'.Lined) (hself : (e'.submission n).phase.isOpen = false)
    (hphase : forall m : Nat, m ≠ n -> (e'.submission m).phase = (e.submission m).phase ∨
      (e'.submission m).phase = .granted ∧ Job.request m ∈ e'.queue)
    (hqueue : forall j : Job, j ∈ e.queue -> j ∈ e'.queue) (hgate : e'.gate = e.gate)
    (hwaits : forall m : Nat, (e'.submission m).phase = .waiting ->
      m ∈ (e'.server (e'.submission m).server).waiting)
    (hfull : forall k : Nat, (e'.server k).waiting ≠ [] -> (e'.server k).freeSlots = 0)
    (hheld : forall k : Nat, k < e'.servers.length -> (e'.server k).freeSlots = 0 ->
      exists m : Nat, (e'.submission m).server = k ∧
        (e'.submission m).phase.holdsSlot = true) : e'.Driven none passing := by
  have hother : forall m : Nat, (e'.submission m).phase.isOpen = true -> m ≠ n := by
    intro m hm hsame
    rw [hsame, hself] at hm
    cases hm
  have hidle : forall m : Nat, m ≠ n -> turn ≠ some m := by
    intro m hm hown
    rcases hturn with hnone | hsome
    · rw [hnone] at hown
      cases hown
    · rw [hsome] at hown
      exact hm (Option.some.inj hown).symm
  constructor
  · exact hlined
  · intro m hm
    have hne := hother m (Phase.isOpen_of_isReady hm)
    rcases hphase m hne with hsame | ⟨_, hqueued⟩
    · rw [hsame] at hm
      rcases h.ready m hm with hown | hqueued
      · exact absurd hown (hidle m hne)
      · exact .inr (hqueue _ hqueued)
    · exact .inr hqueued
  · intro m held next hm
    have hne := hother m (by rw [hm]; rfl)
    rcases hphase m hne with hsame | ⟨hgranted, _⟩
    · rw [hsame] at hm
      exact absurd (h.active m held next hm) (hidle m hne)
    · rw [hgranted] at hm
      cases hm
  · intro m held resume hm
    rcases hphase m (hother m (by rw [hm]; rfl)) with hsame | ⟨hgranted, _⟩
    · rw [hsame] at hm
      rw [hgate]
      exact h.atGate m held resume hm
    · rw [hgranted] at hm
      cases hm
  · exact hwaits
  · exact hfull
  · exact hheld

/-- After an answer, others are what they were, but for the first one that waited for the slot. -/
theorem phase_answer (h : e.Lined) (taken? : Option Nat) (response : Response) (m : Nat)
    (hm : m ≠ n) :
    (((e.releaseSlot (e.submission n).server).callBack n taken? response).submission m).phase =
      if (e.server (e.submission n).server).waiting.head? = some m then .granted
      else (e.submission m).phase := by
  rw [phase_callBack, if_neg fun hboth => hm hboth.1, phase_releaseSlot]
  by_cases hhead : (e.server (e.submission n).server).waiting.head? = some m
  · have hwaits := ((h _).2 m (List.mem_of_mem_head? hhead)).2
    rw [if_pos hhead, if_pos ⟨hhead, lt_of_phase (by rw [hwaits]; rfl)⟩]
  · rw [if_neg hhead, if_neg fun hboth => hhead hboth.1]

theorem Driven.waits_releaseSlot (h : e.Driven turn passing) {k m : Nat}
    (hm : (e.submission m).phase = .waiting) (hhead : (e.server k).waiting.head? ≠ some m) :
    m ∈ ((e.releaseSlot k).server (e.submission m).server).waiting := by
  have hbefore := h.waits m hm
  rw [waiting_releaseSlot]
  split
  · rename_i hk
    rw [hk] at hbefore
    cases hwaiting : (e.server k).waiting with
    | nil =>
        rw [hwaiting] at hbefore
        cases hbefore
    | cons first rest =>
        rw [hwaiting] at hbefore hhead
        rcases List.mem_cons.1 hbefore with hfirst | hrest
        · exact absurd (congrArg some hfirst.symm) hhead
        · exact hrest
  · exact hbefore

theorem Driven.full_releaseSlot (h : e.Driven turn passing) {k m : Nat}
    (hm : ((e.releaseSlot k).server m).waiting ≠ []) :
    ((e.releaseSlot k).server m).freeSlots = 0 := by
  rw [waiting_releaseSlot] at hm
  rw [freeSlots_releaseSlot]
  by_cases hown : m = k
  · rw [if_pos hown] at hm
    have hsome : (e.server k).waiting ≠ [] := by
      intro hnone
      rw [hnone] at hm
      exact hm rfl
    rw [if_neg fun hboth => hsome hboth.2, hown]
    exact h.full _ hsome
  · rw [if_neg hown] at hm
    rw [if_neg fun hboth => hown hboth.1.1]
    exact h.full m hm

theorem Driven.held_releaseSlot (h : e.Driven turn passing)
    (hnot : (e.submission n).phase ≠ .waiting) {k : Nat} (hk : k < e.servers.length)
    (hfree : ((e.releaseSlot (e.submission n).server).server k).freeSlots = 0) :
    exists m : Nat, m ≠ n ∧ (e.submission m).server = k ∧
      ((e.server (e.submission n).server).waiting.head? = some m ∨
        (e.submission m).phase.holdsSlot = true) := by
  rw [freeSlots_releaseSlot] at hfree
  by_cases hown : k = (e.submission n).server
  · cases hwaiting : (e.server (e.submission n).server).waiting with
    | nil =>
        rw [hown] at hk hfree
        rw [if_pos ⟨⟨rfl, hk⟩, hwaiting⟩] at hfree
        cases hfree
    | cons first rest =>
        have hhead : (e.server (e.submission n).server).waiting.head? = some first := by
          rw [hwaiting]
          rfl
        have hserver := ((h.lined _).2 first (List.mem_of_mem_head? hhead)).1
        exact ⟨first, h.lined.ne_head hnot hhead, hserver.trans hown.symm, .inl rfl⟩
  · rw [if_neg fun hboth => hown hboth.1.1] at hfree
    rcases h.held k hk hfree with ⟨m, hm, hslot⟩
    have hne : m ≠ n := by
      intro hsame
      rw [hsame] at hm
      exact hown hm.symm
    exact ⟨m, hne, hm, .inr hslot⟩

/-- A request that has a slot is answered, and the first one that waits for the slot has it. -/
theorem Driven.answer (h : e.Driven turn passing) (hturn : turn = none ∨ turn = some n)
    (hholds : (e.submission n).phase.holdsSlot = true) (taken? : Option Nat) (response : Response) :
    ((e.releaseSlot (e.submission n).server).callBack n taken? response).Driven none
      passing := by
  have hopen := Phase.isOpen_of_holdsSlot hholds
  have hnot : (e.submission n).phase ≠ .waiting := by
    intro hwaits
    rw [hwaits] at hholds
    cases hholds
  have hreleased := spares_releaseSlot e (e.submission n).server
  have hspares := hreleased.trans (spares_callBack _ n taken? response)
  have hphase := phase_answer (n := n) h.lined taken? response
  have hself : (((e.releaseSlot (e.submission n).server).callBack n taken?
      response).submission n).phase.isOpen = false := by
    rw [phase_callBack, if_pos ⟨rfl, by rw [hreleased.submissions]; exact lt_of_phase hopen⟩]
    exact isOpen_received _ n response
  have hserver : forall m : Nat, (((e.releaseSlot (e.submission n).server).callBack n taken?
      response).submission m).server = (e.submission m).server := by
    intro m
    rw [hspares.submission m]
  have hlined : ((e.releaseSlot (e.submission n).server).callBack n taken?
      response).Lined := by
    apply (h.lined.releaseSlot _).callBack
    rw [phase_releaseSlot]
    split
    · exact nofun
    · exact hnot
  apply h.without hturn hlined hself
  · intro m hm
    rw [hphase m hm, queue_callBack]
    split
    · rename_i hhead
      exact .inr ⟨rfl, mem_queue_of_head hhead⟩
    · exact .inl rfl
  · intro j hj
    rw [queue_callBack]
    exact mem_queue_releaseSlot hj _
  · exact ((replies_releaseSlot e _).trans (replies_callBack _ n taken? response)).gate
  · intro m hm
    have hne : m ≠ n := by
      intro hsame
      rw [hsame] at hm
      rw [hm] at hself
      cases hself
    rw [hphase m hne] at hm
    split at hm
    · cases hm
    · rename_i hhead
      rw [hserver, server_callBack]
      exact h.waits_releaseSlot hm hhead
  · intro k hk
    rw [server_callBack] at hk ⊢
    exact h.full_releaseSlot hk
  · intro k hk hfree
    rw [hspares.servers] at hk
    rw [server_callBack] at hfree
    rcases h.held_releaseSlot hnot hk hfree with ⟨m, hne, hm, hslot⟩
    refine ⟨m, (hserver m).trans hm, ?_⟩
    rw [hphase m hne]
    split
    · rfl
    · rename_i hhead
      exact hslot.resolve_left hhead

theorem Driven.report (h : e.Driven turn passing) (events : List Event) :
    (e.report events).Driven turn passing :=
  h.of_same rfl rfl (fun _ hj => hj) rfl

theorem Driven.comeBack (h : e.Driven turn passing) (n : Nat) :
    (e.comeBack n).Driven turn passing := by
  refine h.of_parts ?_ (spares_comeBack e n).servers ?_ ?_ (replies_comeBack e n).gate
  · intro k
    rw [server_comeBack]
    split
    · exact ⟨rfl, rfl⟩
    · exact ⟨rfl, rfl⟩
  · intro m
    rw [submission_of_submissions (submissions_comeBack e n)]
    exact ⟨rfl, rfl⟩
  · intro j hj
    exact mem_queue_countOut (e := { e with calling := e.calling.erase n }) hj _

theorem Driven.respond (h : e.Driven turn passing) (hturn : turn = none ∨ turn = some n)
    (hholds : (e.submission n).phase.holdsSlot = true)
    (result : Except Failure (List (String × OutputStorage))) :
    (e.respond n result).Driven none passing := by
  have hnoted : (e.noteResult n result).Driven turn passing := by
    cases result <;> exact h.of_same rfl rfl (fun _ hj => hj) rfl
  have hsame : (e.noteResult n result).submission n = e.submission n := by
    cases result <;> rfl
  have hanswer := hnoted.answer hturn (by rw [hsame]; exact hholds) (some e.readings.computeTime)
    (e.responseTo n e.readings.computeTime result)
  rw [hsame] at hanswer
  exact hanswer

theorem report_releaseSlot (e : Engine) (k : Nat) (events : List Event) :
    (e.releaseSlot k).report events = (e.report events).releaseSlot k := by
  have hserver : (e.report events).server k = e.server k := rfl
  unfold releaseSlot
  rw [hserver]
  split <;> rfl

theorem Driven.leave (h : e.Driven turn passing) (hturn : turn = none ∨ turn = some n)
    (hopen : (e.submission n).phase.isOpen = true)
    (hfree : (e.submission n).phase.holdsSlot = false) : (e.giveUp n).Driven none passing := by
  have hwithdraw : e.withdraw n = e.modifyServer (e.submission n).server fun server =>
      { server with waiting := server.waiting.filter (· != n) } := by
    simp only [withdraw]
    rw [if_neg (by rw [hfree]; exact Bool.false_ne_true)]
  have hspares := spares_giveUp e n
  have hserver : forall m : Nat,
      ((e.giveUp n).submission m).server = (e.submission m).server := by
    intro m
    rw [hspares.submission m]
  have hcalled := phase_callBack ((e.withdraw n).report
    [.requestDropped (e.submission n).request.id]) n
  have hphase : forall m : Nat, m ≠ n ->
      ((e.giveUp n).submission m).phase = (e.submission m).phase := by
    intro m hm
    unfold giveUp
    rw [hcalled, if_neg fun hboth => hm hboth.1, hwithdraw]
    rfl
  have hwaiting : forall k : Nat, ((e.giveUp n).server k).freeSlots = (e.server k).freeSlots ∧
      (((e.giveUp n).server k).waiting = (e.server k).waiting ∨
        ((e.giveUp n).server k).waiting = (e.server k).waiting.filter (· != n)) := by
    intro k
    have hmodified : (e.giveUp n).server k = (e.withdraw n).server k :=
      server_callBack _ n k none _
    rw [hmodified, hwithdraw, server_modifyServer]
    split
    · rename_i hk
      rw [hk.1]
      exact ⟨rfl, .inr rfl⟩
    · exact ⟨rfl, .inl rfl⟩
  have hself : ((e.giveUp n).submission n).phase.isOpen = false := by
    rw [(callsBack_giveUp h.lined hopen).isOpen, if_pos rfl]
  apply h.without hturn (h.lined.giveUp n) hself
  · exact fun m hm => .inl (hphase m hm)
  · intro j hj
    unfold giveUp
    rw [queue_callBack, hwithdraw]
    exact hj
  · unfold giveUp
    rw [(replies_callBack _ n none _).gate, hwithdraw]
    rfl
  · intro m hm
    have hne : m ≠ n := by
      intro hsame
      rw [hsame] at hm
      rw [hm] at hself
      cases hself
    rw [hphase m hne] at hm
    have hbefore := h.waits m hm
    rw [hserver]
    rcases (hwaiting (e.submission m).server).2 with hsame | hfiltered
    · rw [hsame]
      exact hbefore
    · rw [hfiltered]
      exact List.mem_filter.2 ⟨hbefore, by simpa using hne⟩
  · intro k hk
    rw [(hwaiting k).1]
    apply h.full k
    rcases (hwaiting k).2 with hsame | hfiltered
    · rw [hsame] at hk
      exact hk
    · rw [hfiltered] at hk
      intro hnone
      rw [hnone] at hk
      exact hk rfl
  · intro k hk hnone
    rw [hspares.servers] at hk
    rw [(hwaiting k).1] at hnone
    rcases h.held k hk hnone with ⟨m, hm, hslot⟩
    have hne : m ≠ n := by
      intro hsame
      rw [hsame, hfree] at hslot
      cases hslot
    refine ⟨m, (hserver m).trans hm, ?_⟩
    rw [hphase m hne]
    exact hslot

theorem Driven.giveUp (h : e.Driven turn passing) (hturn : turn = none ∨ turn = some n)
    (hopen : (e.submission n).phase.isOpen = true) : (e.giveUp n).Driven none passing := by
  cases hslot : (e.submission n).phase.holdsSlot with
  | false => exact h.leave hturn hopen hslot
  | true =>
      have hreported := h.report [.requestDropped (e.submission n).request.id]
      have hanswer := hreported.answer hturn hslot none (e.responseTo n 0 (.error .cancelled))
      have hwithdraw : e.withdraw n = e.releaseSlot (e.submission n).server := by
        simp only [withdraw]
        rw [if_pos hslot]
      unfold Engine.giveUp
      rw [hwithdraw, report_releaseSlot]
      exact hanswer

theorem Driven.cancel (h : e.Driven turn passing) (hturn : turn = none ∨ turn = some n) :
    (e.cancel n).Driven none passing := by
  unfold Engine.cancel
  split
  · rename_i hopen
    exact (h.giveUp hturn hopen).comeBack n
  · rename_i hclosed
    rcases hturn with hnone | hsome
    · rw [hnone] at h
      exact h
    · rw [hsome] at h
      apply h.rest
      · apply Bool.eq_false_iff.2
        exact fun hready => hclosed (Phase.isOpen_of_isReady hready)
      · intro held next hactive
        rw [hactive] at hclosed
        exact hclosed rfl

/-!
# The work that is left
-/

theorem Agrees.openCount (h : e.Agrees e') : e'.openCount = e.openCount := by
  unfold Engine.openCount
  rw [h.submissions]
  apply countP_range_congr
  intro m _
  rw [h.isOpen]

theorem CallsBack.openCount (h : CallsBack n e e') : e.openCount = e'.openCount + 1 := by
  unfold Engine.openCount
  rw [h.submissions]
  apply countP_range_remove (lt_of_phase h.wasOpen) h.wasOpen
  · rw [h.isOpen, if_pos rfl]
  · intro m _ hm
    rw [h.isOpen, if_neg hm]

theorem Agrees.work_le (h : e.Agrees e') (hqueue : e'.queue = e.queue)
    (hstops : e'.stops.length = e.stops.length) : e'.work ≤ e.work := by
  unfold work
  apply Nat.le_of_eq
  rw [h.openCount, hqueue, hstops]

/-- A request that is answered uses up more work than its callback makes when it returns. -/
theorem CallsBack.work_comeBack (h : CallsBack n e e')
    (hqueue : e'.queue.length ≤ e.queue.length + 1) (hstops : e'.stops.length = e.stops.length) :
    (e'.comeBack n).work ≤ e.work := by
  have hcount := h.openCount
  have hsame : (e'.comeBack n).openCount = e'.openCount := by
    unfold Engine.openCount submission
    rw [submissions_comeBack]
  have hcounted : (e'.comeBack n).queue.length ≤ e'.queue.length + e'.stops.length :=
    length_queue_countOut { e' with calling := e'.calling.erase n } (e'.submission n).server
  have hkept : (e'.comeBack n).stops = e'.stops := (replies_comeBack e' n).stops
  unfold work
  rw [hkept, hsame, hcount, hstops, Nat.mul_add]
  omega

theorem work_finish (h : e.Lined) (hn : (e.submission n).phase.isOpen = true)
    (result : Except Failure (List (String × OutputStorage))) :
    (e.finish n result).work ≤ e.work := by
  apply (callsBack_respond h hn result).work_comeBack
  · have hnoted : (e.noteResult n result).queue = e.queue := by
      cases result <;> rfl
    have hreleased := length_queue_releaseSlot (e.noteResult n result) (e.submission n).server
    rw [hnoted] at hreleased
    unfold Engine.respond
    rw [queue_callBack]
    exact hreleased
  · rw [(replies_respond e n result).stops]

theorem work_giveUp (h : e.Lined) (hn : (e.submission n).phase.holdsSlot = true) :
    ((e.giveUp n).comeBack n).work ≤ e.work := by
  have hwithdraw : e.withdraw n = e.releaseSlot (e.submission n).server := by
    simp only [withdraw]
    rw [if_pos hn]
  apply (callsBack_giveUp h (Phase.isOpen_of_holdsSlot hn)).work_comeBack
  · have hreleased := length_queue_releaseSlot e (e.submission n).server
    unfold Engine.giveUp
    rw [queue_callBack, hwithdraw]
    exact hreleased
  · rw [(replies_giveUp e n).stops]

/-!
# Executing

A request that has not asked for a slot waits where none is free.
-/

theorem Driven.finish (h : e.Driven (some n) passing)
    (hholds : (e.submission n).phase.holdsSlot = true)
    (result : Except Failure (List (String × OutputStorage))) :
    (e.finish n result).Driven none passing ∧ (e.finish n result).work ≤ e.work :=
  ⟨(h.respond (.inr rfl) hholds result).comeBack n,
    work_finish h.lined (Phase.isOpen_of_holdsSlot hholds) result⟩

theorem Driven.unwind (h : e.Driven (some n) passing)
    (hholds : (e.submission n).phase.holdsSlot = true) (slots : List OutputSlot) :
    (e.unwind n slots).Driven none passing ∧ (e.unwind n slots).work ≤ e.work := by
  have hrecorded : (e.recordUnwinding ⟨n, slots⟩).Driven (some n) passing :=
    h.of_same rfl rfl (fun _ hj => hj) rfl
  exact ⟨(hrecorded.giveUp (.inr rfl) (Phase.isOpen_of_holdsSlot hholds)).comeBack n,
    work_giveUp hrecorded.lined hholds⟩

theorem Driven.conclude (h : e.Driven (some n) passing)
    (hholds : (e.submission n).phase.holdsSlot = true) (result : Except Failure Unit)
    (slots : List OutputSlot) :
    (e.conclude n result slots).Driven none passing ∧
      (e.conclude n result slots).work ≤ e.work := by
  have htaken : (e.takeSlots n result slots).Driven (some n) passing :=
    h.of_same rfl rfl (fun _ hj => hj) rfl
  exact htaken.finish hholds (e.outcome n result slots).1

theorem Driven.pass (h : e.Driven (some n) passing)
    (hholds : (e.submission n).phase.holdsSlot = true) (held : List OutputSlot)
    (next : Behaviour) :
    (e.setPhase n (.inBackend held next)).Driven (some n) passing ∧
      (e.setPhase n (.inBackend held next)).work ≤ e.work := by
  have hopen : (Phase.inBackend held next).isOpen = (e.submission n).phase.isOpen :=
    (Phase.isOpen_of_holdsSlot hholds).symm
  constructor
  · apply h.setPhase rfl
    · intro hwaits
      rw [hwaits] at hholds
      cases hholds
    · exact nofun
    · exact fun _ => rfl
    · exact nofun
    · exact fun _ _ _ => rfl
    · exact nofun
  · exact (agrees_setPhase hopen).work_le rfl rfl

theorem Driven.await (h : e.Driven (some n) passing)
    (hholds : (e.submission n).phase.holdsSlot = true) (hgate : e.gate.isClosed = false)
    (held : List OutputSlot) (resume : Bool -> Behaviour) :
    Driven { e.setPhase n (.atGate held resume) with
      gate := { e.gate with waiting := e.gate.waiting ++ [n] } } none passing := by
  have hlt : n < e.submissions.length := lt_of_phase (Phase.isOpen_of_holdsSlot hholds)
  have hopened : Driven { e with gate := { e.gate with waiting := e.gate.waiting ++ [n] } } (some n)
      passing := by
    refine ⟨h.lined, h.ready, h.active, ?_, h.waits, h.full, h.held⟩
    intro m held resume hm
    refine (h.atGate m held resume hm).imp_right ?_
    exact fun hboth => ⟨List.mem_append_left _ hboth.1, hboth.2⟩
  have hset := hopened.setPhase (n := n) (p := .atGate held resume) rfl
    (by
      intro hwaits
      have hsame : (e.submission n).phase = .waiting := hwaits
      rw [hsame] at hholds
      cases hholds)
    nofun (fun _ => rfl) nofun nofun
    (fun _ _ _ => .inr ⟨List.mem_append_right _ (List.mem_singleton_self n), hgate⟩)
  have hphase : (({ e with gate := { e.gate with
      waiting := e.gate.waiting ++ [n] } }.setPhase n (.atGate held resume)).submission n).phase =
        .atGate held resume := phase_setPhase_self hlt
  apply hset.rest
  · rw [hphase]
    rfl
  · rw [hphase]
    exact nofun

theorem Driven.proceed (h : e.Driven (some n) passing)
    (hholds : (e.submission n).phase.holdsSlot = true) (next : Behaviour) :
    (e.proceed n next).Driven none passing ∧ (e.proceed n next).work ≤ e.work := by
  have hopen := Phase.isOpen_of_holdsSlot hholds
  induction next generalizing e with
  | finish result slots => exact h.conclude hholds result slots
  | panic slots => exact h.conclude hholds _ slots
  | awaitGate slots resume ih =>
      have hlt : n < e.submissions.length := lt_of_phase hopen
      unfold Engine.proceed
      split
      · rcases h.pass hholds slots (resume false) with ⟨hdriven, hwork⟩
        have hrest := ih false hdriven (by rw [phase_setPhase_self hlt]; rfl)
          (by rw [phase_setPhase_self hlt]; rfl)
        exact ⟨hrest.1, Nat.le_trans hrest.2 hwork⟩
      · rename_i hgate
        split
        · constructor
          · exact h.await hholds (Bool.eq_false_iff.2 hgate) slots resume
          · exact (agrees_setPhase (p := .atGate slots resume) hopen.symm).work_le rfl rfl
        · rename_i permits hpermits
          rcases h.pass hholds slots (resume true) with ⟨hdriven, hwork⟩
          have hpassed : Driven { e.setPhase n (.inBackend slots (resume true)) with
              gate := { e.gate with permits := permits } } (some n) passing :=
            ⟨hdriven.lined, hdriven.ready, hdriven.active, hdriven.atGate, hdriven.waits,
              hdriven.full, hdriven.held⟩
          have hphase : (({ e.setPhase n (.inBackend slots (resume true)) with
              gate := { e.gate with permits := permits } } : Engine).submission n).phase =
                .inBackend slots (resume true) := phase_setPhase_self hlt
          have hrest := ih true hpassed (by rw [hphase]; rfl) (by rw [hphase]; rfl)
          exact ⟨hrest.1, Nat.le_trans hrest.2 hwork⟩

theorem Driven.enter (h : e.Driven (some n) passing)
    (hholds : (e.submission n).phase.holdsSlot = true) (batch : ExecutionBatch)
    (next : Behaviour) :
    ((e.enterBackend n batch).proceed n next).Driven none passing ∧
      ((e.enterBackend n batch).proceed n next).work ≤ e.work := by
  have hlt : n < (e.record (.execute n batch)).submissions.length :=
    lt_of_phase (Phase.isOpen_of_holdsSlot hholds)
  have hrecorded : (e.record (.execute n batch)).Driven (some n) passing :=
    h.of_same rfl rfl (fun _ hj => hj) rfl
  rcases hrecorded.pass hholds batch.outputs ((e.submission n).request.model.backend.run n batch)
    with ⟨hentered, hwork⟩
  have hrest := hentered.proceed (by rw [phase_setPhase_self hlt]; rfl) next
  exact ⟨hrest.1, Nat.le_trans hrest.2 hwork⟩

theorem Driven.carryOut (h : e.Driven (some n) passing)
    (hn : (e.submission n).phase = .granted) :
    (e.carryOut n).Driven none passing ∧ (e.carryOut n).work ≤ e.work := by
  have hholds : (e.submission n).phase.holdsSlot = true := by
    rw [hn]
    rfl
  have hmemory : forall (a : Allocator) (events : List Event),
      ((e.setMemory (e.submission n).server ⟨a, e.directory⟩).report events).Driven (some n)
        passing := fun _ _ => h.of_same rfl rfl (fun _ hj => hj) rfl
  simp only [Engine.carryOut]
  split
  · exact h.finish hholds _
  · split
    · exact (hmemory _ _).finish hholds _
    · exact (hmemory _ _).unwind hholds _
    · exact (hmemory _ _).enter hholds _ _

theorem Driven.execute (h : e.Driven (some n) passing)
    (hn : (e.submission n).phase = .granted) :
    (e.execute n).Driven none passing ∧ (e.execute n).work ≤ e.work :=
  (h.report _).carryOut hn

theorem Driven.takeSlot (h : e.Driven (some n) passing) (hn : (e.submission n).phase = .accepted)
    {free : Nat} (hfree : (e.server (e.submission n).server).freeSlots = free + 1) :
    ((e.modifyServer (e.submission n).server fun s =>
      { s with freeSlots := free }).setPhase n .granted).Driven (some n) passing := by
  have hlt : n < e.submissions.length := lt_of_phase (by rw [hn]; rfl)
  have hnone : (e.server (e.submission n).server).waiting = [] := by
    by_contra hsome
    rw [h.full _ hsome] at hfree
    cases hfree
  have hphase : forall m : Nat, m ≠ n -> ((e.modifyServer (e.submission n).server fun s =>
      { s with freeSlots := free }).setPhase n .granted).submission m = e.submission m := by
    intro m hm
    rw [submission_setPhase, if_neg fun hboth => hm hboth.1]
    rfl
  have hself : (((e.modifyServer (e.submission n).server fun s =>
      { s with freeSlots := free }).setPhase n .granted).submission n).phase = .granted :=
    phase_setPhase_self hlt
  have hserver : forall k : Nat, ((e.modifyServer (e.submission n).server fun s =>
      { s with freeSlots := free }).setPhase n .granted).server k =
        if k = (e.submission n).server ∧ (e.submission n).server < e.servers.length then
          { e.server (e.submission n).server with freeSlots := free }
        else e.server k := fun k => server_modifyServer e _ k _
  constructor
  · have htaken := h.lined.modifyServer (n := (e.submission n).server)
      (f := fun s => { s with freeSlots := free }) fun _ => rfl
    exact htaken.setPhase hn nofun
  · intro m hm
    by_cases hsame : m = n
    · exact .inl (congrArg some hsame.symm)
    · rw [hphase m hsame] at hm
      exact h.ready m hm
  · intro m held next hm
    by_cases hsame : m = n
    · exact congrArg some hsame.symm
    · rw [hphase m hsame] at hm
      exact h.active m held next hm
  · intro m held resume hm
    by_cases hsame : m = n
    · rw [hsame, hself] at hm
      cases hm
    · rw [hphase m hsame] at hm
      exact h.atGate m held resume hm
  · intro m hm
    by_cases hsame : m = n
    · rw [hsame, hself] at hm
      cases hm
    · rw [hphase m hsame] at hm ⊢
      have hbefore := h.waits m hm
      rw [hserver]
      split
      · rename_i hk
        rw [hk.1] at hbefore
        exact hbefore
      · exact hbefore
  · intro k hk
    rw [hserver] at hk ⊢
    split at hk
    · exact absurd hnone hk
    · rename_i hother
      rw [if_neg hother]
      exact h.full k hk
  · intro k hk hzero
    by_cases hown : k = (e.submission n).server
    · refine ⟨n, ?_, ?_⟩
      · rw [server_of_submission_setPhase, hown]
        rfl
      · rw [hself]
        rfl
    · rw [hserver, if_neg fun hboth => hown hboth.1] at hzero
      have hlength : k < e.servers.length := by simpa [Engine.setPhase, modifyServer] using hk
      rcases h.held k hlength hzero with ⟨m, hm, hslot⟩
      have hne : m ≠ n := by
        intro hsame
        rw [hsame] at hm
        exact hown hm.symm
      refine ⟨m, ?_, ?_⟩
      · rw [hphase m hne]
        exact hm
      · rw [hphase m hne]
        exact hslot

theorem Driven.awaitSlot (h : e.Driven (some n) passing)
    (hn : (e.submission n).phase = .accepted)
    (hlength : (e.submission n).server < e.servers.length)
    (hfree : (e.server (e.submission n).server).freeSlots = 0) :
    (e.awaitSlot n).Driven none passing := by
  have hlt : n < e.submissions.length := lt_of_phase (by rw [hn]; rfl)
  have hphase : forall m : Nat, m ≠ n -> (e.awaitSlot n).submission m = e.submission m :=
    fun _ hm => submission_awaitSlot_of_ne e hm
  have hself : ((e.awaitSlot n).submission n).phase = .waiting := phase_awaitSlot_self hlt
  have hown : ((e.awaitSlot n).submission n).server = (e.submission n).server :=
    server_submission_awaitSlot e n n
  have hserver : forall k : Nat, (e.awaitSlot n).server k =
      if k = (e.submission n).server ∧ (e.submission n).server < e.servers.length then
        { e.server (e.submission n).server with
          waiting := (e.server (e.submission n).server).waiting ++ [n] }
      else e.server k := fun k => server_modifyServer e _ k _
  constructor
  · exact h.lined.awaitSlot hn
  · intro m hm
    have hne : m ≠ n := by
      intro hsame
      rw [hsame, hself] at hm
      cases hm
    rw [hphase m hne] at hm
    rcases h.ready m hm with hturn | hqueue
    · exact absurd (Option.some.inj hturn).symm hne
    · exact .inr hqueue
  · intro m held next hm
    have hne : m ≠ n := by
      intro hsame
      rw [hsame, hself] at hm
      cases hm
    rw [hphase m hne] at hm
    exact absurd (Option.some.inj (h.active m held next hm)).symm hne
  · intro m held resume hm
    have hne : m ≠ n := by
      intro hsame
      rw [hsame, hself] at hm
      cases hm
    rw [hphase m hne] at hm
    exact h.atGate m held resume hm
  · intro m hm
    rw [hserver]
    by_cases hsame : m = n
    · rw [hsame, hown, if_pos ⟨rfl, hlength⟩]
      exact List.mem_append_right _ (List.mem_singleton_self n)
    · rw [hphase m hsame] at hm ⊢
      have hbefore := h.waits m hm
      split
      · rename_i hk
        rw [hk.1] at hbefore
        exact List.mem_append_left _ hbefore
      · exact hbefore
  · intro k hk
    rw [hserver] at hk ⊢
    split at hk
    · rename_i hboth
      rw [if_pos hboth]
      exact hfree
    · rename_i hother
      rw [if_neg hother]
      exact h.full k hk
  · intro k hk hzero
    have hlength : k < e.servers.length := by
      simpa [Engine.awaitSlot, Engine.setPhase, modifyServer] using hk
    have hzero' : (e.server k).freeSlots = 0 := by
      rw [hserver] at hzero
      split at hzero
      · rename_i hboth
        rw [hboth.1]
        exact hfree
      · exact hzero
    rcases h.held k hlength hzero' with ⟨m, hm, hslot⟩
    have hne : m ≠ n := by
      intro hsame
      rw [hsame, hn] at hslot
      cases hslot
    refine ⟨m, ?_, ?_⟩
    · rw [hphase m hne]
      exact hm
    · rw [hphase m hne]
      exact hslot

theorem Driven.runRequest (h : e.Driven (some n) passing)
    (hinside : forall (held : List OutputSlot) (next : Behaviour),
      (e.submission n).phase ≠ .inBackend held next)
    (hlength : n < e.submissions.length -> (e.submission n).server < e.servers.length) :
    (e.runRequest n).Driven none passing ∧ (e.runRequest n).work ≤ e.work := by
  unfold Engine.runRequest
  split
  · rename_i hphase
    have hlt : n < e.submissions.length := lt_of_phase (by rw [hphase]; rfl)
    have hqueue : forall f : Server -> Server, (forall s : Server, (f s).inflight = s.inflight) ->
        e.Agrees (e.modifyServer (e.submission n).server f) := fun _ hf => agrees_modifyServer hf
    split
    · rename_i e' htake
      unfold takeSlot? at htake
      split at htake
      · cases htake
      · rename_i free hfree
        cases htake
        have htaken := h.takeSlot hphase hfree
        have hrest := htaken.execute (phase_setPhase_self hlt)
        have hagrees := hqueue (fun s => { s with freeSlots := free }) fun _ => rfl
        have hgranted := hagrees.trans (agrees_setPhase (n := n) (p := .granted)
          (by rw [hagrees.isOpen, hphase]; rfl))
        exact ⟨hrest.1, Nat.le_trans hrest.2 (hgranted.work_le rfl rfl)⟩
    · rename_i htake
      unfold takeSlot? at htake
      split at htake
      · rename_i hfree
        have hagrees := hqueue (fun s => { s with waiting := s.waiting ++ [n] }) fun _ => rfl
        have hwaiting := hagrees.trans (agrees_setPhase (n := n) (p := .waiting)
          (by rw [hagrees.isOpen, hphase]; rfl))
        exact ⟨h.awaitSlot hphase (hlength hlt) hfree, hwaiting.work_le rfl rfl⟩
      · cases htake
  · rename_i hphase
    exact h.execute hphase
  · rename_i slots resume hphase
    have hlt : n < e.submissions.length := lt_of_phase (by rw [hphase]; rfl)
    rcases h.pass (by rw [hphase]; rfl) slots (resume !e.gate.isClosed) with ⟨hdriven, hwork⟩
    have hrest := hdriven.proceed (by rw [phase_setPhase_self hlt]; rfl) (resume !e.gate.isClosed)
    exact ⟨hrest.1, Nat.le_trans hrest.2 hwork⟩
  · rename_i haccepted hgranted hthrough
    constructor
    · apply h.rest _ hinside
      cases hphase : (e.submission n).phase with
      | accepted => exact absurd hphase haccepted
      | granted => exact absurd hphase hgranted
      | letThrough slots resume => exact absurd hphase (hthrough slots resume)
      | _ => rfl
    · exact Nat.le_refl _

end Engine

end InferenceEngine
