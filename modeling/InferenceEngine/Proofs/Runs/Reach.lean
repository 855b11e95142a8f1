import InferenceEngine.Proofs.Runs.Operations

/-!
# Reachable engines

Every operation is a sequence of moves, provided that the tables of the servers are valid, and
moves keep them so.  Hence all that holds after every sequence of moves holds after every list of
operations.
-/

namespace InferenceEngine

/-- What an operation is about, as far as runs are told apart by it, where jobs are run or not. -/
def Operation.Does (isRunning : Bool) : Operation -> Deed -> Prop
  | _, .other => True
  | .runAt _, .enter _ => True
  | .runAt _, .unwind _ => True
  | .submit _ _ callback, .accept c => c = callback
  | .submit .., .cancel _ => isRunning = false
  | .cancel n, .cancel m => m = n
  | .close, .cancel _ => True
  | .close, .close => True
  | .allocate n _ _ _, .use m => m = n
  | .free n _ _, .use m => m = n
  | _, _ => False

namespace Engine

variable {also : Deed -> Prop}

/-!
# Calls of clients

A request that is refused is counted in and out again.
-/

theorem moves_cancel (e : Engine) (n : Nat) (halso : also (.cancel n)) :
    Moves also e (e.cancel n) := by
  unfold cancel
  split
  · rename_i hopen
    exact (Moves.of_also halso (.cancel e n hopen)).trans
      (Moves.one (.comeBack _ n (mem_calling_giveUp e n)))
  · exact Moves.refl e

theorem moves_launch (e : Engine) (server callback : Nat) (request : PreparedRequest)
    (haccept : also (.accept callback))
    (halso : e.isRunning = false -> forall m : Nat, also (.cancel m))
    (henroll : Move (.accept callback) e
      ((e.countIn server).enroll server request callback)) :
    Moves also e ((e.countIn server).launch server request callback) := by
  have hreported := (Moves.of_also haccept henroll).trans
    (moves_report _ [.requestAccepted request.id request.model.config.name])
  apply hreported.trans
  simp only [launch]
  split
  · exact moves_start _ _
  · rename_i hrunning
    exact moves_cancel _ _ (halso (Bool.eq_false_iff.2 hrunning) _)

theorem servers_countOut_countIn (e : Engine) (k : Nat) :
    ((e.countIn k).countOut k).servers = e.servers := by
  have hmodify : (e.servers.modify k fun s => { s with inflight := s.inflight + 1 }).modify k
      (fun s => { s with inflight := s.inflight - 1 }) = e.servers := by
    apply List.ext_getElem?
    intro m
    rw [List.getElem?_modify, List.getElem?_modify]
    by_cases hm : k = m
    · cases hs : e.servers[m]? with
      | none => simp
      | some s => simp [hm]
    · simp [hm]
  simp only [countOut]
  split
  · exact hmodify
  · exact hmodify

theorem countOut_countIn (e : Engine) (k : Nat) :
    (e.countIn k).countOut k = { e with woken := ((e.countIn k).countOut k).woken } := by
  have hservers := servers_countOut_countIn e k
  simp only [countOut] at hservers ⊢
  split
  · rename_i hzero
    rw [if_pos hzero] at hservers
    simp only [countIn, modifyServer, wakeStops, wake] at hservers ⊢
    rw [hservers]
  · rename_i hpositive
    rw [if_neg hpositive] at hservers
    simp only [countIn, modifyServer] at hservers ⊢
    rw [hservers]

theorem moves_refuse (e : Engine) (k : Nat) : Moves also e ((e.countIn k).countOut k) := by
  rw [countOut_countIn]
  exact Moves.one (.schedule e e.gate _ e.started e.clock e.readings e.events)

theorem moves_submit (e : Engine) (server callback : Nat) (provider : Provider)
    (haccept : also (.accept callback))
    (halso : e.isRunning = false -> forall m : Nat, also (.cancel m)) :
    Moves also e (e.submit server provider callback).2 := by
  unfold submit
  split
  · exact Moves.refl e
  · split
    · exact Moves.refl e
    · rename_i hstate
      have hstate : (e.server server).state = .serving := Classical.not_not.1 hstate
      cases hprepare : PreparedRequest.prepare (e.server server).registry provider with
      | error failure => exact moves_refuse e server
      | ok request =>
          exact moves_launch e server callback request haccept halso
            (.enroll e server callback provider request hstate hprepare)

theorem moves_dropResponse (e : Engine) (n : Nat) : Moves also e (e.dropResponse n) := by
  unfold dropResponse
  split
  · rename_i response hphase
    exact Moves.one (.dropResponse e n response hphase)
  · exact Moves.refl e

theorem moves_setRegistry (e : Engine) (n : Nat) (registry : Registry) :
    Moves also e (e.setRegistry n registry) :=
  moves_modifyServer e n _ ⟨fun h => h, rfl, rfl, rfl, rfl, rfl, fun h => h⟩

theorem moves_register (e : Engine) (n : Nat) (name key : String) (offset size : Nat) :
    Moves also e (e.register n name key offset size) :=
  (moves_setRegistry e n _).trans (moves_report _ _)

theorem moves_unregister (e : Engine) (n : Nat) (name : String) :
    Moves also e (e.unregister n name) := by
  unfold unregister
  split
  · exact (moves_setRegistry e n _).trans (moves_report _ _)
  · exact Moves.refl e

theorem moves_unregisterAll (e : Engine) (n : Nat) : Moves also e (e.unregisterAll n) :=
  (moves_setRegistry e n _).trans (moves_report _ _)

theorem moves_allocateFrom (e : Engine) (n : Nat) (domain : MemoryDomain) (region : Int)
    (size : Nat) (halso : also (.use n)) :
    Moves also e (e.allocateFrom n domain region size) := by
  unfold allocateFrom
  split
  · exact Moves.of_also halso (.useAllocator e n _)
  · exact (Moves.of_also halso (.useAllocator e n _)).trans (moves_report _ _)

theorem moves_freeTo (e : Engine) (n : Nat) (buffer : Buffer) (given : BufferTriple)
    (halso : also (.use n)) : Moves also e (e.freeTo n buffer given) :=
  Moves.of_also halso (.useAllocator e n _)

theorem moves_runAt (e : Engine) (position : Nat) (halso : forall n : Nat, also (.enter n))
    (hunwind : forall n : Nat, also (.unwind n)) : Moves also e (e.runAt position) := by
  unfold runAt
  split
  · exact Moves.refl e
  · rename_i job hjob
    cases job with
    | request n => exact (moves_dequeue e position).trans (moves_runRequest halso hunwind _ n)
    | stop n => exact (moves_dequeue e position).trans (moves_runStop _ n)

theorem moves_close (e : Engine) (hcancel : forall n : Nat, also (.cancel n))
    (hclose : also .close) : Moves also e e.close := by
  have hquit : Moves also e { e with isRunning := false } := Moves.of_also hclose (.close e)
  have hcancels : forall e : Engine, Moves also e e.cancelAll := fun e =>
    Moves.foldl (fun e n => moves_cancel e n (hcancel n)) _ e
  have hstops : forall e : Engine, Moves also e e.abandonAll := fun e =>
    Moves.foldl moves_abandonStop _ e
  exact ((hquit.trans (hcancels _)).trans (hstops _)).trans
    (Moves.one (.schedule _ _ [] [] _ _ _))

/-!
# Tables and waiting stops
-/

/-- What the tables of servers and the calls that stop them always are. -/
structure Sound (e : Engine) : Prop where
  tables : forall m : Nat, (e.server m).table.IsValid
  draining : forall c : StopCall, c ∈ e.stops -> c.deadline?.isSome = true ->
    c.server < e.servers.length ∧ (e.server c.server).state ≠ .serving

theorem sound_empty : empty.Sound where
  tables _ := ModelTable.isValid_empty
  draining c hc := by cases hc

theorem Spares.sound {e e' : Engine} (h : e.Spares e') (k : e.Sound) : e'.Sound where
  tables m := by
    rw [h.server m]
    exact k.tables m
  draining c hc hdeadline := by
    rw [h.stops] at hc
    rcases k.draining c hc hdeadline with ⟨hlt, hstate⟩
    constructor
    · rw [h.servers]
      exact hlt
    · rw [h.server c.server]
      exact hstate

theorem Move.sound {deed : Deed} {e e' : Engine} (h : Move deed e e') (k : e.Sound) :
    e'.Sound := by
  cases h with
  | schedule | close | directory | create | addStats | addAllocator | useAllocator =>
      exact ⟨k.tables, k.draining⟩
  | stops _ stops hstops =>
      constructor
      · exact k.tables
      · intro c hc hdeadline
        rcases hstops c hc hdeadline with hold | hnew
        · exact k.draining c hold hdeadline
        · exact hnew
  | addServer _ options allocator table hallocator htable =>
      constructor
      · intro m
        rw [server_addServer]
        split
        · exact htable
        · exact k.tables m
      · intro c hc hdeadline
        rcases k.draining c hc hdeadline with ⟨hlt, hstate⟩
        constructor
        · have hlength : (e.addServer options allocator table).servers.length =
              e.servers.length + 1 := by simp [Engine.addServer]
          rw [hlength]
          exact Nat.lt_succ_of_lt hlt
        · rw [server_addServer, if_neg (Nat.ne_of_lt hlt)]
          exact hstate
  | server _ n s hs =>
      constructor
      · intro m
        rw [server_modifyServer]
        split
        · exact hs.table (k.tables n)
        · exact k.tables m
      · intro c hc hdeadline
        rcases k.draining c hc hdeadline with ⟨hlt, hstate⟩
        constructor
        · simpa [modifyServer] using hlt
        · rw [server_modifyServer]
          split
          · rename_i hn
            rw [hn.1] at hstate
            exact hs.state hstate
          · exact hstate
  | enroll _ server callback provider request hstate hprepare =>
      have hcount := (spares_modifyServer e server
        (f := fun s => { s with inflight := s.inflight + 1 }) fun _ => rfl).sound k
      exact ⟨hcount.tables, hcount.draining⟩
  | awaitSlot _ n hn =>
      have hqueue := spares_modifyServer e (e.submission n).server
        (f := fun s => { s with waiting := s.waiting ++ [n] }) fun _ => rfl
      exact (hqueue.trans (spares_setPhase _ n .waiting)).sound k
  | takeSlot _ e' n hn htake =>
      rcases takeSlot?_eq_some htake with ⟨free, rfl⟩
      have htaken := spares_modifyServer e (e.submission n).server
        (f := fun s => { s with freeSlots := free }) fun _ => rfl
      exact (htaken.trans (spares_setPhase _ n .granted)).sound k
  | gatherFails _ n failure hn hgather => exact (spares_respond e n _).sound k
  | allocateFails _ n failure a events hn hallocate =>
      exact (spares_respond _ n _).sound ⟨k.tables, k.draining⟩
  | unwind _ n slots a events hn hallocate =>
      exact (spares_giveUp _ n).sound ⟨k.tables, k.draining⟩
  | enter _ n inputs slots a events hn hgather hallocate => exact ⟨k.tables, k.draining⟩
  | turn _ n p hn => exact (spares_setPhase e n p).sound k
  | leave _ n held next result slots hn hnext =>
      have htaken : (e.takeSlots n result slots).Sound := ⟨k.tables, k.draining⟩
      exact (spares_respond _ n _).sound htaken
  | cancel _ n hn => exact (spares_giveUp e n).sound k
  | comeBack _ n hn => exact (spares_comeBack e n).sound k
  | dropResponse _ n response hn => exact ⟨k.tables, k.draining⟩
  | ignore _ n => exact ⟨k.tables, k.draining⟩

theorem Moves.sound {e e' : Engine} (h : Moves also e e') (k : e.Sound) : e'.Sound :=
  h.induct (P := Sound) (fun _ _ _ _ hmove hsound => hmove.sound hsound) k

/-!
# Operations and runs

What runs come to is reachable.
-/

theorem moves_operate {e : Engine} (h : e.Sound) (op : Operation)
    (halso : forall deed : Deed, op.Does e.isRunning deed -> also deed) :
    Moves also e (e.operate op) := by
  cases op with
  | build options allocator scan factory isInside =>
      simp only [operate]
      split
      · rename_i hall
        apply moves_build e options allocator scan factory isInside
        intro n hn
        rw [hn] at hall
        simpa using hall
      · exact Moves.refl e
  | poll server scan factory => exact moves_poll e server scan factory (h.tables server)
  | submit server provider callback =>
      exact moves_submit e server callback provider (halso (.accept callback) rfl)
        fun hrunning m => halso (.cancel m) hrunning
  | runAt position =>
      exact moves_runAt e position (fun n => halso (.enter n) trivial)
        fun n => halso (.unwind n) trivial
  | cancel n => exact moves_cancel e n (halso (.cancel n) rfl)
  | callStop server => exact moves_callStop e server
  | beginStop server => exact moves_startStop e server
  | wakeStop call => exact moves_wake e _
  | abandonStop call => exact moves_abandonStop e call
  | dropServer server => exact moves_dropServer e server
  | tick seconds readings =>
      exact Moves.one (.schedule e e.gate e.woken e.started _ readings e.events)
  | openGate permits => exact moves_openGate e permits
  | closeGate => exact moves_closeGate e
  | dropResponse n => exact moves_dropResponse e n
  | ignore n => exact Moves.one (.ignore e n)
  | register server name key offset size => exact moves_register e server name key offset size
  | unregister server name => exact moves_unregister e server name
  | unregisterAll server => exact moves_unregisterAll e server
  | setDirectory d => exact Moves.one (.directory e d)
  | report events => exact moves_report e events
  | addAllocator plan => exact Moves.one (.addAllocator e plan)
  | allocate n domain region size =>
      exact moves_allocateFrom e n domain region size (halso (.use n) rfl)
  | free n buffer given => exact moves_freeTo e n buffer given (halso (.use n) rfl)
  | close =>
      exact moves_close e (fun n => halso (.cancel n) trivial) (halso .close trivial)

theorem moves_after {e : Engine} (h : e.Sound) (ops : List Operation)
    (halso : forall op : Operation, op ∈ ops -> forall (isRunning : Bool) (deed : Deed),
      op.Does isRunning deed -> also deed) : Moves also e (e.after ops) := by
  induction ops generalizing e with
  | nil => exact Moves.refl e
  | cons op rest ih =>
      have hfirst : Moves also e (e.operate op) :=
        moves_operate h op (halso op List.mem_cons_self e.isRunning)
      refine hfirst.trans (ih (hfirst.sound h) ?_)
      exact fun other hother => halso other (List.mem_cons_of_mem _ hother)

theorem Sound.moves_after {e : Engine} (h : e.Sound) (ops : List Operation) :
    Moves (fun _ => True) e (e.after ops) :=
  Engine.moves_after h ops fun _ _ _ _ _ => trivial

theorem reached_concat (ops : List Operation) (op : Operation) :
    reached (ops ++ [op]) = (reached ops).operate op := by
  unfold reached
  rw [after_append]
  rfl

theorem reachable_reached (ops : List Operation) : (reached ops).Reachable :=
  sound_empty.moves_after ops

theorem Reachable.sound {e : Engine} (h : e.Reachable) : e.Sound := Moves.sound h sound_empty

end Engine

end InferenceEngine
