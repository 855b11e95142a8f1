import InferenceEngine.Proofs.Requests.Precedence
import InferenceEngine.Proofs.Runs.Progress

/-!
# When requests ask for slots

A request asks for a slot when its job is run for the first time, and at no other moment of a run.
So the requests of a server ask in the order in which their jobs are run, and this is the order in
which they are given slots.
-/

namespace InferenceEngine

def Job.request? : Job -> Option Nat
  | .request n => some n
  | .stop _ => none

theorem Job.mem_request? {jobs : List Job} {n : Nat} :
    n ∈ jobs.filterMap Job.request? ↔ .request n ∈ jobs := by
  rw [List.mem_filterMap]
  constructor
  · rintro ⟨job, hjob, hn⟩
    cases job with
    | request m =>
        cases hn
        exact hjob
    | stop m => cases hn
  · exact fun hjob => ⟨_, hjob, rfl⟩

/-- Whether an operation neither lets a request in nor runs a job. -/
def Operation.isQuiet : Operation -> Bool
  | .submit .. | .runAt _ => false
  | _ => true

namespace Engine

variable {e middle e' : Engine} {m n : Nat}

/-- The requests that have not asked for a slot, in the order of their jobs. -/
def newcomers (e : Engine) : List Nat :=
  (e.queue.filterMap Job.request?).filter fun n => (e.submission n).phase.rank = 0

theorem mem_newcomers : n ∈ e.newcomers ↔
    .request n ∈ e.queue ∧ (e.submission n).phase = .accepted := by
  unfold newcomers
  rw [List.mem_filter, Job.mem_request?, decide_eq_true_iff, Phase.rank_eq_zero_iff]

/-!
# Nobody asks

What is added to the queue comes after none that has not asked.
-/

/-- No request asks for a slot, and those that have not asked keep their order. -/
structure Defers (e e' : Engine) : Prop where
  submissions : e'.submissions.length = e.submissions.length
  asked : forall n : Nat, ¬ e.HasAsked n -> ¬ e'.HasAsked n
  newcomers : e'.newcomers.Sublist e.newcomers
  known : forall n : Nat, .request n ∈ e'.queue -> .request n ∈ e.queue ∨ n < e.submissions.length

theorem Defers.refl (e : Engine) : e.Defers e where
  submissions := rfl
  asked _ hn := hn
  newcomers := .refl _
  known _ hn := .inl hn

theorem Defers.trans (h : e.Defers middle) (k : middle.Defers e') : e.Defers e' where
  submissions := k.submissions.trans h.submissions
  asked n hn := k.asked n (h.asked n hn)
  newcomers := k.newcomers.trans h.newcomers
  known n hn := by
    rcases k.known n hn with hqueue | hlt
    · exact h.known n hqueue
    · rw [h.submissions] at hlt
      exact .inr hlt

theorem newcomers_sublist
    (hbegun : forall n : Nat, (e'.submission n).phase = .accepted ->
      (e.submission n).phase = .accepted) {jobs more : List Job}
    (hwoken : e'.woken = e.woken ++ jobs) (hstarted : e'.started = e.started ++ more)
    (hjobs : forall n : Nat, .request n ∈ jobs ++ more -> (e'.submission n).phase ≠ .accepted) :
    e'.newcomers.Sublist e.newcomers := by
  have hnone : forall added : List Job, (forall n : Nat, .request n ∈ added ->
      .request n ∈ jobs ++ more) ->
        (added.filterMap Job.request?).filter (fun n => (e'.submission n).phase.rank = 0) = [] := by
    intro added hadded
    rw [List.filter_eq_nil_iff]
    intro n hn
    rw [decide_eq_true_iff, Phase.rank_eq_zero_iff]
    exact hjobs n (hadded n (Job.mem_request?.1 hn))
  unfold newcomers Engine.queue
  rw [hwoken, hstarted]
  simp only [List.filterMap_append, List.filter_append]
  rw [hnone jobs fun n hn => List.mem_append_left _ hn,
    hnone more fun n hn => List.mem_append_right _ hn, List.append_nil, List.append_nil,
    ← List.filter_append, ← List.filter_append]
  apply List.monotone_filter_right
  intro n hn
  rw [decide_eq_true_iff, Phase.rank_eq_zero_iff] at hn ⊢
  exact hbegun n hn

theorem known_of_jobs {jobs more : List Job} (hwoken : e'.woken = e.woken ++ jobs)
    (hstarted : e'.started = e.started ++ more)
    (hjobs : forall n : Nat, .request n ∈ jobs ++ more -> n < e.submissions.length)
    (hn : .request n ∈ e'.queue) : .request n ∈ e.queue ∨ n < e.submissions.length := by
  unfold Engine.queue at hn ⊢
  rw [hwoken, hstarted] at hn
  rcases List.mem_append.1 hn with hn | hn
  · rcases List.mem_append.1 hn with hold | hnew
    · exact .inl (List.mem_append_left _ hold)
    · exact .inr (hjobs n (List.mem_append_left _ hnew))
  · rcases List.mem_append.1 hn with hold | hnew
    · exact .inl (List.mem_append_right _ hold)
    · exact .inr (hjobs n (List.mem_append_right _ hnew))

theorem Defers.of_stops (hsubmissions : e'.submissions = e.submissions)
    (hcompletions : e'.completions = e.completions) {jobs more : List Job}
    (hwoken : e'.woken = e.woken ++ jobs) (hstarted : e'.started = e.started ++ more)
    (hjobs : forall n : Nat, .request n ∉ jobs ++ more) : e.Defers e' where
  submissions := congrArg List.length hsubmissions
  asked n hn := by
    unfold HasAsked WasGranted IsExecuted at hn ⊢
    rw [submission_of_submissions hsubmissions, hcompletions]
    exact hn
  newcomers := by
    refine newcomers_sublist ?_ hwoken hstarted fun n hn => absurd hn (hjobs n)
    intro n hn
    rw [submission_of_submissions hsubmissions] at hn
    exact hn
  known n := known_of_jobs hwoken hstarted fun n hn => absurd hn (hjobs n)

theorem Defers.of_same (hsubmissions : e'.submissions = e.submissions)
    (hcompletions : e'.completions = e.completions) (hwoken : e'.woken = e.woken)
    (hstarted : e'.started = e.started) : e.Defers e' :=
  .of_stops hsubmissions hcompletions (hwoken.trans (List.append_nil _).symm)
    (hstarted.trans (List.append_nil _).symm) fun _ hn => by cases hn

theorem Manages.defers (h : e.Manages e') : e.Defers e' :=
  .of_same h.submissions h.completions h.woken h.started

theorem Defers.foldl {α : Type} {f : Engine -> α -> Engine}
    (h : forall (e : Engine) (a : α), e.Defers (f e a)) (xs : List α) (e : Engine) :
    e.Defers (xs.foldl f e) := by
  induction xs generalizing e with
  | nil => exact .refl e
  | cons x rest ih => exact (h e x).trans (ih (f e x))

/-!
# Attending to a request
-/

theorem Attends.newcomers (h : Attends n e e') : e'.newcomers.Sublist e.newcomers := by
  rcases h.woken with ⟨jobs, hjobs, hbegun⟩
  refine newcomers_sublist ?_ hjobs (h.started.trans (List.append_nil _).symm) ?_
  · intro m hm
    by_contra hnot
    exact h.ne_accepted hnot hm
  · intro m hm
    rw [List.append_nil] at hm
    exact (hbegun m hm).2

theorem Attends.known (h : Attends n e e') {m : Nat} (hm : .request m ∈ e'.queue) :
    .request m ∈ e.queue ∨ m < e.submissions.length := by
  rcases h.woken with ⟨jobs, hjobs, hbegun⟩
  refine known_of_jobs hjobs (h.started.trans (List.append_nil _).symm) ?_ hm
  intro j hj
  rw [List.append_nil] at hj
  exact (hbegun j hj).1

theorem Attends.asked (h : Attends n e e') (hm : m ≠ n) (k : ¬ e.HasAsked m) :
    ¬ e'.HasAsked m := by
  have hsame : (e'.submission m).phase = (e.submission m).phase := by
    rcases h.others m hm with hsame | ⟨hwaits, _⟩
    · exact hsame
    · exact absurd (.inl hwaits) k
  rintro (hwaits | hholds | ⟨c, hc, hself, hexecuted⟩)
  · rw [hsame] at hwaits
    exact k (.inl hwaits)
  · rw [hsame] at hholds
    exact k (.inr (.inl hholds))
  · rcases h.completions c hc with hold | hown
    · exact k (.inr (.inr ⟨c, hold, hself, hexecuted⟩))
    · exact hm (hself.symm.trans hown)

theorem Attends.defers (h : Attends n e e') (k : ¬ e.HasAsked n -> ¬ e'.HasAsked n) :
    e.Defers e' where
  submissions := h.submissions
  asked m hm := by
    by_cases hself : m = n
    · rw [hself] at hm ⊢
      exact k hm
    · exact h.asked hself hm
  newcomers := h.newcomers
  known _ hm := h.known hm

theorem defers_cancel (h : e.Lined) (n : Nat) : e.Defers (e.cancel n) := by
  apply (attends_cancel h n).defers
  intro hnot
  unfold cancel
  split
  · rename_i hopen
    have hgiven := not_asked_giveUp h hopen fun hexecuted => hnot (.inr (.inr hexecuted))
    unfold HasAsked WasGranted IsExecuted at hgiven ⊢
    rw [submission_of_submissions (submissions_comeBack _ n), completions_comeBack]
    exact hgiven
  · exact hnot

/-!
# Operations

Where requests come no further on their way to a slot, nobody asks.
-/

theorem hasAsked_iff : e.HasAsked n ↔ (e.submission n).phase.rank = 1 ∨
    (e.submission n).phase.rank = 2 ∨ e.IsExecuted n := by
  unfold HasAsked WasGranted
  rw [Phase.rank_eq_one_iff, Phase.rank_eq_two_iff]

theorem Defers.of_rank (hsubmissions : e'.submissions.length = e.submissions.length)
    (hrank : forall n : Nat, (e'.submission n).phase.rank = (e.submission n).phase.rank)
    (hcompletions : e'.completions = e.completions) (hqueue : e'.queue = e.queue) :
    e.Defers e' where
  submissions := hsubmissions
  asked n hn := by
    rw [hasAsked_iff] at hn ⊢
    unfold IsExecuted at hn ⊢
    rw [hrank, hcompletions]
    exact hn
  newcomers := by
    unfold Engine.newcomers
    rw [hqueue]
    simp only [hrank]
    exact .refl _
  known n hn := by
    rw [hqueue] at hn
    exact .inl hn

theorem defers_setPhase {p : Phase} (h : p.rank = (e.submission n).phase.rank) :
    e.Defers (e.setPhase n p) := by
  refine .of_rank (by simp [setPhase]) ?_ rfl rfl
  intro m
  rw [submission_setPhase]
  split
  · rename_i hm
    rw [hm.1, ← h]
  · rfl

theorem defers_start {jobs : List Job} (h : forall n : Nat, .request n ∈ jobs ->
    n < e.submissions.length ∧ (e.submission n).phase ≠ .accepted) : e.Defers (e.start jobs) where
  submissions := rfl
  asked _ hn := hn
  newcomers := newcomers_sublist (fun _ hn => hn) (List.append_nil _).symm rfl
    fun n hn => (h n hn).2
  known _ := known_of_jobs (List.append_nil _).symm rfl fun n hn => (h n hn).1

theorem defers_letThrough (e : Engine) (n : Nat) : e.Defers (e.letThrough n) := by
  unfold letThrough
  split
  · rename_i slots resume hphase
    have hlt : n < e.submissions.length := lt_of_phase (by rw [hphase]; rfl)
    have hset : e.Defers (e.setPhase n (.letThrough slots resume)) :=
      defers_setPhase (by rw [hphase]; rfl)
    refine hset.trans (defers_start ?_)
    intro m hm
    cases List.mem_singleton.1 hm
    rw [hset.submissions, phase_setPhase_self hlt]
    exact ⟨hlt, by simp⟩
  · exact .refl e

theorem defers_build (e : Engine) (options : ServerOptions) (allocator : Option Nat)
    (scan : Except Failure (List RepositoryModel)) (factory : Option BackendFactory)
    (isInside : Bool) : e.Defers (e.build options allocator scan factory isInside).2 := by
  simp only [build]
  split
  · exact .refl e
  · split
    · exact .refl e
    · cases scan with
      | error failure => exact .refl e
      | ok models =>
          refine (manages_reconcile e factory none options .empty models).defers.trans ?_
          simp only
          split
          · exact .of_same rfl rfl rfl rfl
          · cases allocator <;> exact .of_same rfl rfl rfl rfl

theorem lined_cancel (h : e.Lined) (n : Nat) : (e.cancel n).Lined := (attends_cancel h n).lined

theorem defers_cancelAll (h : e.Lined) : e.Defers e.cancelAll := by
  have hall : forall (ns : List Nat) (e : Engine), e.Lined -> e.Defers (ns.foldl cancel e) := by
    intro ns
    induction ns with
    | nil => exact fun e _ => .refl e
    | cons n rest ih =>
        exact fun e hlined => (defers_cancel hlined n).trans (ih _ (lined_cancel hlined n))
  exact hall _ e h

theorem defers_close (h : e.Lined) : e.Defers e.close := by
  have hquit : e.Defers { e with isRunning := false } := .of_same rfl rfl rfl rfl
  have hlined : Lined { e with isRunning := false } := h.of_parts rfl rfl
  have habandoned : forall e : Engine, e.Defers e.abandonAll :=
    fun e => Defers.foldl (fun e n => (manages_abandonStop e n).defers) _ e
  have hcleared : forall e : Engine, e.Defers e.clearQueues := fun e =>
    { submissions := rfl
      asked := fun _ hn => hn
      newcomers := List.nil_sublist _
      known := fun _ hn => by cases hn }
  exact ((hquit.trans (defers_cancelAll hlined)).trans (habandoned _)).trans (hcleared _)

theorem defers_operate (h : e.Lined) {op : Operation} (hop : op.isQuiet = true) :
    e.Defers (e.operate op) := by
  cases op with
  | build options allocator scan factory isInside =>
      simp only [operate]
      split
      · exact defers_build e options allocator scan factory isInside
      · exact .refl e
  | poll server scan factory => exact (manages_poll e server scan factory).defers
  | submit server provider callback => cases hop
  | runAt position => cases hop
  | cancel n => exact defers_cancel h n
  | callStop server => exact (manages_callStop e server).defers
  | beginStop server =>
      refine (manages_addStop e server).defers.trans (defers_start ?_)
      intro n hn
      cases List.mem_singleton.1 hn
  | wakeStop call =>
      refine .of_stops rfl rfl rfl (List.append_nil _).symm ?_
      intro n hn
      cases List.mem_singleton.1 hn
  | abandonStop call => exact (manages_abandonStop e call).defers
  | dropServer server => exact (manages_dropServer e server).defers
  | openGate permits =>
      have hopened : forall gate : Gate, e.Defers { e with gate := gate } :=
        fun _ => .of_same rfl rfl rfl rfl
      exact (hopened _).trans (Defers.foldl defers_letThrough _ _)
  | closeGate =>
      have hclosed : forall gate : Gate, e.Defers { e with gate := gate } :=
        fun _ => .of_same rfl rfl rfl rfl
      exact (hclosed _).trans (Defers.foldl defers_letThrough _ _)
  | dropResponse n =>
      simp only [operate, dropResponse]
      split
      · rename_i response hphase
        have hreleased : e.Defers (e.releaseResponse response) := .of_same rfl rfl rfl rfl
        have hsame : ((e.releaseResponse response).submission n).phase = .answered response :=
          hphase
        exact hreleased.trans (defers_setPhase (by rw [hsame]; rfl))
      · exact .refl e
  | ignore n =>
      refine .of_rank (spares_ignore e n).submissions ?_ rfl rfl
      intro m
      rw [show (e.operate (.ignore n)).submission m = (e.ignore n).submission m from rfl,
        phase_ignore]
  | register server name key offset size =>
      exact (manages_register e server name key offset size).defers
  | unregister server name => exact (manages_unregister e server name).defers
  | unregisterAll server => exact (manages_unregisterAll e server).defers
  | allocate n domain region size =>
      simp only [operate, allocateFrom]
      split <;> exact .of_same rfl rfl rfl rfl
  | close => exact defers_close h
  | _ => exact .of_same rfl rfl rfl rfl

/-!
# Requests that are let in
-/

theorem not_asked_enroll (h : ¬ e.HasAsked n) (server callback : Nat) (request : PreparedRequest) :
    ¬ ((e.countIn server).enroll server request callback).HasAsked n := by
  have hsubmission := submission_enroll (e.countIn server) server callback request n
  rw [hasAsked_iff] at h ⊢
  rw [hsubmission]
  split
  · rintro (hone | htwo | hexecuted)
    · cases hone
    · cases htwo
    · exact h (.inr (.inr hexecuted))
  · exact h

theorem defers_refuse (e : Engine) (k : Nat) : e.Defers ((e.countIn k).countOut k) := by
  rcases woken_countOut (e.countIn k) k with ⟨jobs, hjobs, hstops⟩
  have hrest := countOut_countIn e k
  have hsubmissions : ((e.countIn k).countOut k).submissions = e.submissions := by rw [hrest]
  have hcompletions : ((e.countIn k).countOut k).completions = e.completions := by rw [hrest]
  have hstarted : ((e.countIn k).countOut k).started = e.started ++ [] := by
    rw [hrest, List.append_nil]
  refine .of_stops hsubmissions hcompletions hjobs hstarted ?_
  intro n hn
  rw [List.append_nil] at hn
  exact hstops n hn

theorem Lined.letIn (h : e.Lined) {server : Nat} {provider : Provider} {request : PreparedRequest}
    (hstate : (e.server server).state = .serving)
    (hprepare : PreparedRequest.prepare (e.server server).registry provider = .ok request)
    (callback : Nat) : Lined (((e.countIn server).enroll server request callback).report
      [.requestAccepted request.id request.model.config.name]) := by
  have henrolled := (Move.enroll e server callback provider request hstate hprepare).lined h
  exact henrolled.of_parts rfl rfl

theorem not_asked_submit (hlined : e.Lined) (h : ¬ e.HasAsked n) (server callback : Nat)
    (provider : Provider) : ¬ (e.submit server provider callback).2.HasAsked n := by
  unfold submit
  split
  · exact h
  · split
    · exact h
    · rename_i hstate
      have hstate : (e.server server).state = .serving := Classical.not_not.1 hstate
      cases hprepare : PreparedRequest.prepare (e.server server).registry provider with
      | error failure =>
          exact (defers_refuse e server).asked n h
      | ok request =>
          have hnot := not_asked_enroll h server callback request
          simp only [launch]
          split
          · exact hnot
          · exact (defers_cancel (hlined.letIn hstate hprepare callback) _).asked n hnot

/-!
# Jobs that are run

A request asks for a slot when its job is run, and not otherwise.
-/

theorem defers_dequeue (e : Engine) (position : Nat) : e.Defers (e.dequeue position) := by
  rcases dequeue_eq e position with ⟨woken, started, hdequeue⟩
  have hqueue := queue_dequeue e position
  rw [hdequeue] at hqueue ⊢
  constructor
  · rfl
  · exact fun _ hn => hn
  · unfold newcomers
    rw [hqueue]
    exact ((List.eraseIdx_sublist _ _).filterMap _).filter _
  · intro n hn
    rw [hqueue] at hn
    exact .inl (List.mem_of_mem_eraseIdx hn)

theorem Lined.dequeue (h : e.Lined) (position : Nat) : (e.dequeue position).Lined := by
  rcases dequeue_eq e position with ⟨woken, started, hdequeue⟩
  rw [hdequeue]
  exact h.of_parts rfl rfl

theorem asks_of_runAt (hlined : e.Lined) (h : ¬ e.HasAsked n) {position : Nat}
    (hasked : (e.runAt position).HasAsked n) :
    e.queue[position]? = some (.request n) ∧ (e.submission n).phase = .accepted := by
  unfold runAt at hasked
  have hdequeued := (defers_dequeue e position).asked n h
  have hphase : ((e.dequeue position).submission n).phase = (e.submission n).phase := by
    rcases dequeue_eq e position with ⟨woken, started, hdequeue⟩
    rw [hdequeue]
    rfl
  split at hasked
  · exact absurd hasked h
  · rename_i job hjob
    cases job with
    | stop call =>
        exact absurd hasked ((manages_runStop _ call).defers.asked n hdequeued)
    | request x =>
        by_cases hx : n = x
        · subst hx
          refine ⟨hjob, ?_⟩
          -- Whoever has not asked is at the beginning or at the end.
          by_contra hnot
          have hclosed : (e.submission n).phase.rank = 3 := by
            rw [hasAsked_iff] at h
            have hle := Phase.rank_le_three (e.submission n).phase
            have hpos := Phase.ne_accepted_iff.1 hnot
            by_contra hother
            have hopen : (e.submission n).phase.rank = 1 ∨ (e.submission n).phase.rank = 2 := by
              omega
            exact h (hopen.imp_right .inl)
          have hsame : (e.dequeue position).runRequest n = e.dequeue position := by
            unfold runRequest
            rw [hphase]
            cases hend : (e.submission n).phase with
            | accepted | granted | letThrough =>
                rw [hend] at hclosed
                cases hclosed
            | _ => rfl
          have hrun : ((e.dequeue position).runRequest n).HasAsked n := hasked
          rw [hsame] at hrun
          exact hdequeued hrun
        · have hattends := attends_runRequest (hlined.dequeue position) x
          exact absurd hasked (hattends.asked hx hdequeued)

theorem asks_in_turn (hlined : e.Lined) (h : ¬ e.HasAsked n) {op : Operation}
    (hasked : (e.operate op).HasAsked n) : exists position : Nat, op = .runAt position ∧
      e.queue[position]? = some (.request n) ∧ (e.submission n).phase = .accepted := by
  cases hop : op.isQuiet with
  | true => exact absurd hasked ((defers_operate hlined hop).asked n h)
  | false =>
      cases op with
      | submit server provider callback =>
          exact absurd hasked (not_asked_submit hlined h server callback provider)
      | runAt position => exact ⟨position, rfl, asks_of_runAt hlined h hasked⟩
      | _ => cases hop

/-!
# The order of asking
-/

theorem Tally.of_executed (h : e.Tally) (hn : e.IsExecuted n) :
    n < e.submissions.length ∧ (e.submission n).phase.isOpen = false := by
  rcases hn with ⟨c, hc, rfl, _⟩
  have hlt := (h.known c hc).1
  refine ⟨hlt, Bool.eq_false_iff.2 fun hopen => ?_⟩
  have hnone := h.called c.submission hlt
  rw [hopen] at hnone
  exact List.countP_eq_zero.1 hnone c hc (decide_eq_true rfl)

theorem Tally.of_asked (h : e.Tally) (hn : e.HasAsked n) :
    n < e.submissions.length ∧ (e.submission n).phase ≠ .accepted := by
  rcases hn with hwaits | hholds | hexecuted
  · refine ⟨lt_of_phase (by rw [hwaits]; rfl), ?_⟩
    rw [hwaits]
    simp
  · refine ⟨lt_of_phase (Phase.isOpen_of_holdsSlot hholds), ?_⟩
    intro haccepted
    rw [haccepted] at hholds
    cases hholds
  · rcases h.of_executed hexecuted with ⟨hlt, hclosed⟩
    refine ⟨hlt, ?_⟩
    intro haccepted
    rw [haccepted] at hclosed
    cases hclosed

theorem takeSlot?_eq_none {k : Nat} (h : (e.server k).freeSlots = 0) : e.takeSlot? k = none := by
  unfold takeSlot?
  rw [h]

theorem Precedes.of_awaitSlot (hn : n < e.submissions.length) (hmn : m ≠ n)
    (hwaits : (e.submission m).phase = .waiting)
    (hmem : m ∈ (e.server (e.submission n).server).waiting)
    (hown : (e.submission m).server = (e.submission n).server) (hfresh : ¬ e.IsExecuted n) :
    Precedes m n (e.awaitSlot n) := by
  have hother := submission_awaitSlot_of_ne e hmn
  have hself := phase_awaitSlot_self hn
  constructor
  · intro haccepted
    rw [hother, hwaits] at haccepted
    cases haccepted
  · rintro _ (hholds | hexecuted)
    · rw [hself] at hholds
      cases hholds
    · exact hfresh hexecuted
  · intro _ _
    rw [hother, hown, waiting_awaitSlot, if_pos ⟨rfl, lt_of_waiting hmem⟩]
    exact (List.singleton_sublist.2 hmem).append (.refl [n])

/-- A request takes a slot while nobody waits for one, or it waits behind all others. -/
theorem Precedes.runAt (hreachable : e.Reachable) (h : e.Driven none []) (hrivals : Rivals m n e)
    {position : Nat} (hjob : e.queue[position]? = some (.request n))
    (hn : (e.submission n).phase = .accepted) (hm : (e.submission m).phase ≠ .accepted) :
    Precedes m n (e.runAt position) := by
  have hmoves : Moves (fun _ => True) e (e.runAt position) :=
    moves_runAt e position (fun _ => trivial) fun _ => trivial
  have hrank := hmoves.rank_le hreachable hrivals.first
  by_cases hpast : 2 ≤ (e.submission m).phase.rank
  · exact .of_rank (Nat.le_trans hpast hrank)
  have hwaits : (e.submission m).phase = .waiting := by
    have hpos := Phase.ne_accepted_iff.1 hm
    exact Phase.rank_eq_one_iff.1 (by omega)
  have hmem : m ∈ (e.server (e.submission n).server).waiting := by
    rw [← hrivals.server]
    exact h.waits m hwaits
  -- As long as anyone waits there is no free slot.
  have hfull := h.full _ (List.ne_nil_of_mem hmem)
  have hfresh : ¬ e.IsExecuted n := fun hexecuted =>
    (hreachable.tally.of_asked (.inr (.inr hexecuted))).2 hn
  rcases dequeue_eq e position with ⟨woken, started, hdequeue⟩
  have hrun : e.runAt position = (e.dequeue position).awaitSlot n := by
    have hphase : ((e.dequeue position).submission n).phase = .accepted := by
      rw [hdequeue]
      exact hn
    have htake : (e.dequeue position).takeSlot?
        ((e.dequeue position).submission n).server = none := by
      apply takeSlot?_eq_none
      rw [hdequeue]
      exact hfull
    unfold Engine.runAt
    rw [hjob]
    show (e.dequeue position).runRequest n = _
    unfold runRequest
    rw [hphase]
    simp only [htake]
  rw [hrun, hdequeue]
  exact .of_awaitSlot hrivals.second hrivals.distinct hwaits hmem hrivals.server hfresh

/-- A request that comes before another one still does after an operation, unless the other one asks
while it has not asked itself. -/
theorem Precedes.operate (hreachable : e.Reachable) (h : e.Driven none [])
    (hrivals : n < e.submissions.length -> Rivals m n e) (k : Precedes m n e) (op : Operation)
    (horder : forall position : Nat, op = .runAt position ->
      e.queue[position]? = some (.request n) -> (e.submission n).phase = .accepted ->
        (e.submission m).phase ≠ .accepted) : Precedes m n (e.operate op) := by
  have hmoves : Moves (fun _ => True) e (e.operate op) :=
    moves_operate hreachable.sound op fun _ _ => trivial
  by_cases hasked : (e.operate op).HasAsked n
  · by_cases hbefore : e.HasAsked n
    · rcases hreachable.tally.of_asked hbefore with ⟨hlt, hbegun⟩
      exact hmoves.precedes hreachable (hrivals hlt) hbegun k
    · rcases asks_in_turn hreachable.lined hbefore hasked with ⟨position, rfl, hjob, hn⟩
      have hlt : n < e.submissions.length := lt_of_phase (by rw [hn]; rfl)
      exact .runAt hreachable h (hrivals hlt) hjob hn (horder position rfl hjob hn)
  · exact .of_not_asked hasked

/-- Whether one request comes before another one in the order of asking: it waits, and the other one
waits behind it or has not asked yet. -/
def HasAskedBefore (e : Engine) (m n : Nat) : Prop :=
  (e.submission m).phase = .waiting ∧
    (¬ e.HasAsked n ∨ [m, n].Sublist (e.server (e.submission m).server).waiting)

theorem HasAskedBefore.precedes (h : e.HasAskedBefore m n) (hlined : e.Lined) (htally : e.Tally) :
    Precedes m n e := by
  rcases h with ⟨hwaits, hnot | hqueued⟩
  · exact .of_not_asked hnot
  · have hbehind := ((hlined _).2 n (hqueued.subset (by simp))).2
    constructor
    · intro haccepted
      rw [hwaits] at haccepted
      cases haccepted
    · rintro _ (hholds | hexecuted)
      · rw [hbehind] at hholds
        cases hholds
      · have hclosed := (htally.of_executed hexecuted).2
        rw [hbehind] at hclosed
        cases hclosed
    · exact fun _ _ => hqueued

end Engine

end InferenceEngine
