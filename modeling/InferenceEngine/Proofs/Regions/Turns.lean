import InferenceEngine.Proofs.Execution.Answers
import InferenceEngine.Proofs.Regions.Writes
import InferenceEngine.Proofs.Servers.Stops

/-!
# What turns of requests do to the files

The only operations of the engine itself that change files are turns of requests, and such a turn
either leaves them alone and gives no good response, or it writes all slots and gives one.
-/

namespace InferenceEngine

namespace Engine

/-- The files are as before, and callbacks are called, if at all, with failures. -/
structure Withholds (e e' : Engine) : Prop where
  directory : e'.directory = e.directory
  completions : exists made : List Completion, e'.completions = e.completions ++ made ∧
    forall c : Completion, c ∈ made -> c.response.isOk = false

/-- What the backend of a request has left is written to the files, and the callback is called with
a good response. -/
structure Delivers (e : Engine) (n : Nat) (slots : List OutputSlot) (e' : Engine) : Prop where
  checked : Execution.checkSlots (e.submission n).request.model.config slots
    (e.submission n).request.outputs = .ok ()
  ending : (⟨n, .ok (), slots⟩ : Ending) ∈ e'.endings
  directory : e'.directory = e.directory.receive (slots.zip (e.submission n).request.outputs)
  completions : exists c : Completion, e'.completions = e.completions ++ [c] ∧
    c.submission = n ∧ c.response.isOk = true

/-- A turn of a request delivers nothing or everything. -/
def Settles (e : Engine) (n : Nat) (e' : Engine) : Prop :=
  e.Withholds e' ∨ exists slots : List OutputSlot, e.Delivers n slots e'

variable {e middle e' : Engine} {n : Nat}

/-!
# Withholding
-/

theorem Withholds.of_same (hdirectory : e'.directory = e.directory)
    (hcompletions : e'.completions = e.completions) : e.Withholds e' where
  directory := hdirectory
  completions := ⟨[], by rw [hcompletions, List.append_nil], fun c hc => by cases hc⟩

theorem Withholds.refl (e : Engine) : e.Withholds e := of_same rfl rfl

theorem Withholds.trans (h : e.Withholds middle) (k : middle.Withholds e') : e.Withholds e' where
  directory := k.directory.trans h.directory
  completions := by
    rcases h.completions with ⟨made, hmade, hfail⟩
    rcases k.completions with ⟨more, hmore, hfail'⟩
    refine ⟨made ++ more, by rw [hmore, hmade, List.append_assoc], ?_⟩
    intro c hc
    rcases List.mem_append.1 hc with hc | hc
    · exact hfail c hc
    · exact hfail' c hc

theorem Withholds.foldl {α : Type} {f : Engine -> α -> Engine}
    (h : forall (e : Engine) (a : α), e.Withholds (f e a)) (xs : List α) (e : Engine) :
    e.Withholds (xs.foldl f e) := by
  induction xs generalizing e with
  | nil => exact .refl e
  | cons x rest ih => exact (h e x).trans (ih (f e x))

theorem Manages.withholds (h : e.Manages e') : e.Withholds e' := .of_same h.directory h.completions

theorem withholds_finish (e : Engine) (n : Nat) (failure : Failure) :
    e.Withholds (e.finish n (.error failure)) where
  directory := (replies_finish e n _).directory
  completions := by
    rcases completions_respond e n (.error failure) with ⟨live, ready, hcompletions⟩
    refine ⟨_, (completions_comeBack _ n).trans hcompletions, ?_⟩
    intro c hc
    rw [List.mem_singleton.1 hc]
    rfl

theorem withholds_giveUp (e : Engine) (n : Nat) : e.Withholds ((e.giveUp n).comeBack n) where
  directory := ((replies_giveUp e n).trans (replies_comeBack _ n)).directory
  completions := by
    rcases completions_giveUp e n with ⟨live, ready, hcompletions⟩
    refine ⟨_, (completions_comeBack _ n).trans hcompletions, ?_⟩
    intro c hc
    rw [List.mem_singleton.1 hc]
    rfl

theorem withholds_cancel (e : Engine) (n : Nat) : e.Withholds (e.cancel n) := by
  unfold cancel
  split
  · exact withholds_giveUp e n
  · exact .refl e

theorem withholds_unwind (e : Engine) (n : Nat) (slots : List OutputSlot) :
    e.Withholds (e.unwind n slots) := by
  have hrecorded : e.Withholds (e.recordUnwinding ⟨n, slots⟩) := .of_same rfl rfl
  exact hrecorded.trans (withholds_giveUp _ n)

/-!
# Turns of requests

What a turn does before it comes to its end does not show.
-/

theorem Settles.since (h : middle.Settles n e') (hdirectory : middle.directory = e.directory)
    (hcompletions : middle.completions = e.completions)
    (hrequest : (middle.submission n).request = (e.submission n).request) : e.Settles n e' := by
  rcases h with hnone | ⟨slots, hall⟩
  · exact .inl ((Withholds.of_same hdirectory hcompletions).trans hnone)
  · right
    refine ⟨slots, ?_, hall.ending, ?_, ?_⟩
    · rw [← hrequest]
      exact hall.checked
    · rw [← hrequest, ← hdirectory]
      exact hall.directory
    · rw [← hcompletions]
      exact hall.completions

theorem request_setPhase (e : Engine) (n m : Nat) (p : Phase) :
    ((e.setPhase n p).submission m).request = (e.submission m).request := by
  rw [(spares_setPhase e n p).submission m]

theorem settles_conclude (hsound : (e.submission n).request.IsSound)
    (result : Except Failure Unit) (slots : List OutputSlot) :
    e.Settles n (e.conclude n result slots) := by
  have hfinish : e.conclude n result slots =
      (e.takeSlots n result slots).finish n (e.outcome n result slots).1 := rfl
  have hmemory : (e.takeSlots n result slots).directory =
      (e.outcome n result slots).2.1.directory := rfl
  rcases Execution.conclude_of_isSound hsound (e.memory (e.submission n).server) result slots with
    ⟨failure, hfailure, hdirectory⟩ | ⟨hresult, hchecked, ⟨outputs, houtputs⟩, hdirectory⟩
  · left
    have hfailed : (e.outcome n result slots).1 = .error failure := hfailure
    have htaken : e.Withholds (e.takeSlots n result slots) := .of_same hdirectory rfl
    rw [hfinish, hfailed]
    exact htaken.trans (withholds_finish _ n failure)
  · right
    have hgood : (e.outcome n result slots).1 = .ok outputs := houtputs
    have hrespond := spares_respond (e.takeSlots n result slots) n (.ok outputs)
    have hreplies := replies_finish (e.takeSlots n result slots) n (.ok outputs)
    rcases completions_respond (e.takeSlots n result slots) n (.ok outputs) with
      ⟨live, ready, hcompletions⟩
    rw [hfinish, hgood]
    refine ⟨slots, hchecked, ?_, ?_, _, (completions_comeBack _ n).trans hcompletions, rfl, rfl⟩
    · have hendings : ((e.takeSlots n result slots).finish n (.ok outputs)).endings =
          e.endings ++ [⟨n, result, slots⟩] :=
        (spares_comeBack _ n).endings.trans hrespond.endings
      rw [hendings, hresult]
      exact List.mem_append_right _ (List.mem_singleton_self _)
    · rw [hreplies.directory, hmemory]
      exact hdirectory

theorem settles_proceed (hsound : (e.submission n).request.IsSound) (next : Behaviour) :
    e.Settles n (e.proceed n next) := by
  induction next generalizing e with
  | finish result slots => exact settles_conclude hsound result slots
  | panic slots => exact settles_conclude hsound _ slots
  | awaitGate slots resume ih =>
      have hset : forall (p : Phase) (gate : Gate),
          (({ e.setPhase n p with gate := gate } : Engine).submission n).request =
            (e.submission n).request := fun p _ => request_setPhase e n n p
      unfold proceed
      split
      · refine (ih false ?_).since rfl rfl (hset _ e.gate)
        rw [request_setPhase]
        exact hsound
      · split
        · exact .inl (.of_same rfl rfl)
        · refine (ih true ?_).since rfl rfl (hset _ _)
          rw [hset]
          exact hsound

theorem settles_carryOut (hsound : (e.submission n).request.IsSound) :
    e.Settles n (e.carryOut n) := by
  have hmemory : forall (a : Allocator) (events : List Event),
      e.Withholds ((e.setMemory (e.submission n).server ⟨a, e.directory⟩).report events) :=
    fun _ _ => .of_same rfl rfl
  simp only [carryOut]
  split
  · exact .inl (withholds_finish e n _)
  · split
    · exact .inl ((hmemory _ _).trans (withholds_finish _ n _))
    · exact .inl ((hmemory _ _).trans (withholds_unwind _ n _))
    · have hentered : forall (e : Engine) (batch : ExecutionBatch),
          ((e.enterBackend n batch).submission n).request = (e.submission n).request :=
        fun e batch => request_setPhase (e.record (.execute n batch)) n n _
      refine (settles_proceed ?_ _).since rfl rfl (hentered _ _)
      rw [hentered]
      exact hsound

theorem settles_runRequest (hsound : (e.submission n).request.IsSound) :
    e.Settles n (e.runRequest n) := by
  have hset : forall p : Phase, ((e.setPhase n p).submission n).request.IsSound := by
    intro p
    rw [request_setPhase]
    exact hsound
  have hexecute : forall e : Engine, (e.submission n).request.IsSound ->
      e.Settles n (e.execute n) := by
    intro e hsound
    have hreported : forall events : List Event,
        (e.report events).Settles n ((e.report events).carryOut n) :=
      fun events => settles_carryOut hsound
    exact (hreported _).since rfl rfl rfl
  unfold runRequest
  split
  · split
    · rename_i e' htake
      rcases takeSlot?_eq_some htake with ⟨free, rfl⟩
      have hrequest := request_setPhase (e.modifyServer (e.submission n).server fun s =>
        { s with freeSlots := free }) n n .granted
      refine (hexecute _ ?_).since rfl rfl hrequest
      rw [hrequest]
      exact hsound
    · exact .inl (.of_same rfl rfl)
  · exact hexecute e hsound
  · exact (settles_proceed (hset _) _).since rfl rfl (request_setPhase e n n _)
  · exact .inl (.refl e)

/-!
# Operations
-/

theorem withholds_build (e : Engine) (options : ServerOptions) (allocator : Option Nat)
    (scan : Except Failure (List RepositoryModel)) (factory : Option BackendFactory)
    (isInside : Bool) : e.Withholds (e.build options allocator scan factory isInside).2 := by
  simp only [build]
  split
  · exact .refl e
  · split
    · exact .refl e
    · cases scan with
      | error failure => exact .refl e
      | ok models =>
          refine (manages_reconcile e factory none options .empty models).withholds.trans ?_
          simp only
          split
          · exact .of_same rfl rfl
          · cases allocator <;> exact .of_same rfl rfl

theorem withholds_submit (e : Engine) (server callback : Nat) (provider : Provider) :
    e.Withholds (e.submit server provider callback).2 := by
  unfold submit
  split
  · exact .refl e
  · split
    · exact .refl e
    · split
      · show e.Withholds ((e.countIn server).countOut server)
        rw [countOut_countIn]
        exact .of_same rfl rfl
      · rename_i request hprepare
        have henrolled : forall events : List Event,
            e.Withholds (((e.countIn server).enroll server request callback).report events) :=
          fun _ => .of_same rfl rfl
        simp only [launch]
        split
        · exact .of_same rfl rfl
        · exact (henrolled _).trans (withholds_cancel _ _)

theorem withholds_close (e : Engine) : e.Withholds e.close := by
  have hquit : e.Withholds { e with isRunning := false } := .of_same rfl rfl
  have hcancelled : forall e : Engine, e.Withholds e.cancelAll :=
    fun e => Withholds.foldl withholds_cancel _ e
  have habandoned : forall e : Engine, e.Withholds e.abandonAll :=
    fun e => Withholds.foldl (fun e n => (manages_abandonStop e n).withholds) _ e
  exact ((hquit.trans (hcancelled _)).trans (habandoned _)).trans (.of_same rfl rfl)

theorem withholds_letThrough (e : Engine) (n : Nat) : e.Withholds (e.letThrough n) := by
  unfold letThrough
  split <;> exact .of_same rfl rfl

/-- What an operation does to the files: a turn of a request delivers nothing or everything, and all
others deliver nothing, unless someone changes the files. -/
theorem settles_operate (hsound : forall n : Nat, (e.submission n).request.IsSound)
    (op : Operation) : e.Withholds (e.operate op) ∨
      (exists d : Directory, op = .setDirectory d) ∨
      exists position n : Nat, op = .runAt position ∧ e.queue[position]? = some (.request n) ∧
        e.Settles n (e.operate op) := by
  cases op with
  | build options allocator scan factory isInside =>
      left
      simp only [operate]
      split
      · exact withholds_build e options allocator scan factory isInside
      · exact .refl e
  | poll server scan factory => exact .inl (manages_poll e server scan factory).withholds
  | submit server provider callback => exact .inl (withholds_submit e server callback provider)
  | runAt position =>
      cases hjob : e.queue[position]? with
      | none =>
          left
          simp only [operate, runAt, hjob]
          exact .refl e
      | some job =>
          rcases dequeue_eq e position with ⟨woken, started, hdequeue⟩
          have htaken : e.Withholds (e.dequeue position) := by
            rw [hdequeue]
            exact .of_same rfl rfl
          cases job with
          | request n =>
              right; right
              have hsubmission : (e.dequeue position).submission n = e.submission n := by
                rw [hdequeue]
                rfl
              have hcompletions : (e.dequeue position).completions = e.completions := by
                rw [hdequeue]
              have hrun := settles_runRequest (e := e.dequeue position) (n := n)
                (by rw [hsubmission]; exact hsound n)
              refine ⟨position, n, rfl, hjob, ?_⟩
              simp only [operate, runAt, hjob, runJob]
              exact hrun.since htaken.directory hcompletions (by rw [hsubmission])
          | stop n =>
              left
              simp only [operate, runAt, hjob, runJob]
              exact htaken.trans (manages_runStop _ n).withholds
  | cancel n => exact .inl (withholds_cancel e n)
  | callStop server => exact .inl (manages_callStop e server).withholds
  | abandonStop call => exact .inl (manages_abandonStop e call).withholds
  | dropServer server => exact .inl (manages_dropServer e server).withholds
  | openGate permits =>
      have hopened : forall gate : Gate, e.Withholds { e with gate := gate } :=
        fun _ => .of_same rfl rfl
      exact .inl ((hopened _).trans (Withholds.foldl withholds_letThrough _ _))
  | closeGate =>
      have hclosed : forall gate : Gate, e.Withholds { e with gate := gate } :=
        fun _ => .of_same rfl rfl
      exact .inl ((hclosed _).trans (Withholds.foldl withholds_letThrough _ _))
  | dropResponse n =>
      left
      simp only [operate, dropResponse]
      split <;> exact .of_same rfl rfl
  | unregister server name => exact .inl (manages_unregister e server name).withholds
  | setDirectory d => exact .inr (.inl ⟨d, rfl⟩)
  | allocate n domain region size =>
      left
      simp only [operate, allocateFrom]
      split <;> exact .of_same rfl rfl
  | close => exact .inl (withholds_close e)
  | beginStop | wakeStop | tick | ignore | register | unregisterAll | report | addAllocator
  | free =>
      exact .inl (.of_same rfl rfl)

/-!
# Requests of a run

All requests have been prepared from sound registries.
-/

theorem isSound_request (ops : List Operation) (n : Nat) :
    ((reached ops).submission n).request.IsSound := by
  have hdefault : (default : PreparedRequest).IsSound := by
    constructor
    · intro input hinput
      cases hinput
    · intro output houtput
      cases houtput
  by_cases hlt : n < (reached ops).submissions.length
  · rcases submit_of_reached ops hlt with ⟨earlier, _, server, _, _, _, hprepare⟩
    exact PreparedRequest.isSound_of_prepare ((tends_reached earlier).isSound server) hprepare
  · have hmissing : (reached ops).submission n = default := by
      simp [Engine.submission, Nat.le_of_not_lt hlt]
    rw [hmissing]
    exact hdefault

end Engine

end InferenceEngine
