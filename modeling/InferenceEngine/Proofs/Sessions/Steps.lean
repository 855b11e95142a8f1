import InferenceEngine.Proofs.Memory.Holders
import InferenceEngine.Proofs.Sessions.Schedules
import InferenceEngine.Session.Buffers
import InferenceEngine.Session.Regions
import InferenceEngine.Session.Requests
import InferenceEngine.Session.Servers

/-!
# Steps of a session

A client does nothing to its engine but operations, whatever steps it takes and whether they have a
result or not.  So all that holds of every run holds of the engine of a session.
-/

namespace InferenceEngine

/-!
# Sessions that go on

What the engine does does not touch what the client knows.
-/

/-- Whether the engine of a session has come there by operations, and the client knows only
allocators that there are. -/
structure Session.IsSound (s : Session) : Prop where
  reached : exists ops : List Operation, s.engine = Engine.reached ops
  allocators : forall (label : String) (n : Nat), s.allocators.get? label = some n ->
    n < s.engine.allocators.length

/-- Whether operations lead from a session to another, which is sound. -/
structure Session.LeadsTo (s s' : Session) : Prop where
  engine : s.engine.LeadsTo s'.engine
  sound : s'.IsSound

namespace Session

theorem isSound_empty : empty.IsSound where
  reached := ⟨[], rfl⟩
  allocators label n h := by cases h

theorem IsSound.refl {s : Session} (h : s.IsSound) : s.LeadsTo s := ⟨Engine.LeadsTo.refl _, h⟩

theorem LeadsTo.trans {s middle s' : Session} (h : s.LeadsTo middle) (k : middle.LeadsTo s') :
    s.LeadsTo s' :=
  ⟨h.engine.trans k.engine, k.sound⟩

theorem IsSound.length_allocators {s : Session} (h : s.IsSound) {e : Engine}
    (hengine : s.engine.LeadsTo e) : s.engine.allocators.length ≤ e.allocators.length := by
  rcases h.reached with ⟨ops, hops⟩
  rcases hengine with ⟨more, rfl⟩
  have hreachable := Engine.reachable_reached ops
  rw [hops]
  exact (hreachable.sound.moves_after more).length_allocators

theorem IsSound.leadsTo {s s' : Session} (h : s.IsSound) (hengine : s.engine.LeadsTo s'.engine)
    (hallocators : s'.allocators = s.allocators) : s.LeadsTo s' := by
  refine ⟨hengine, ?_, ?_⟩
  · rcases h.reached with ⟨ops, hops⟩
    rw [hops] at hengine
    rcases hengine.reached with ⟨more, hmore⟩
    exact ⟨ops ++ more, hmore⟩
  · intro label n hlabel
    rw [hallocators] at hlabel
    exact Nat.lt_of_lt_of_le (h.allocators label n hlabel) (h.length_allocators hengine)

theorem IsSound.keeps {s s' : Session} (h : s.IsSound) (hengine : s'.engine = s.engine)
    (hallocators : s'.allocators = s.allocators) : s.LeadsTo s' := by
  apply h.leadsTo _ hallocators
  rw [hengine]
  exact Engine.LeadsTo.refl _

end Session

/-!
# Steps that are runs

What follows a step is taken in the session that the step has left.
-/

namespace SessionStep

variable {α β : Type}

/-- Whether a step that is taken in a session is a run of its engine. -/
def RunsFrom (step : SessionStep α) (s : Session) : Prop := s.IsSound -> s.LeadsTo (step.run s).2

def IsRun (step : SessionStep α) : Prop := forall s : Session, step.RunsFrom s

theorem isRun_pure (a : α) : (pure a : SessionStep α).IsRun := fun _ hs => hs.refl

theorem isRun_throw (refusal : Refusal) : (throw refusal : SessionStep α).IsRun :=
  fun _ hs => hs.refl

theorem isRun_ofExcept (result : Except Failure α) : (ofExcept result).IsRun := by
  cases result with
  | ok a => exact isRun_pure a
  | error failure => exact isRun_throw _

theorem RunsFrom.bind {x : SessionStep α} {f : α -> SessionStep β} {s : Session}
    (hx : x.RunsFrom s)
    (hf : forall (a : α) (s' : Session), x.run s = (.ok a, s') -> (f a).RunsFrom s') :
    (x >>= f).RunsFrom s := by
  intro hs
  have hfirst := hx hs
  cases hrun : x.run s with
  | mk result s' =>
      rw [hrun] at hfirst
      cases result with
      | ok a =>
          rw [run_bind hrun]
          exact hfirst.trans (hf a s' hrun hfirst.sound)
      | error refusal =>
          rw [run_bind_of_error hrun]
          exact hfirst

theorem run_bind_eq_ok {x : SessionStep α} {f : α -> SessionStep β} {s s' : Session} {b : β}
    (h : (x >>= f).run s = (.ok b, s')) : exists (a : α) (middle : Session),
      x.run s = (.ok a, middle) ∧ (f a).run middle = (.ok b, s') := by
  cases hrun : x.run s with
  | mk result middle =>
      cases result with
      | ok a =>
          rw [run_bind hrun] at h
          exact ⟨a, middle, rfl, h⟩
      | error refusal =>
          rw [run_bind_of_error hrun] at h
          cases h

theorem IsRun.bind {x : SessionStep α} {f : α -> SessionStep β} (hx : x.IsRun)
    (hf : forall a : α, (f a).IsRun) : (x >>= f).IsRun :=
  fun s => (hx s).bind fun a s' _ => hf a s'

theorem runsFrom_get {f : Session -> SessionStep β} {s : Session} (hf : (f s).RunsFrom s) :
    (get >>= f).RunsFrom s := by
  apply RunsFrom.bind (x := get) fun hs => hs.refl
  intro a s' h
  cases h
  exact hf

theorem isRun_get {f : Session -> SessionStep β} (hf : forall s : Session, (f s).RunsFrom s) :
    (get >>= f).IsRun :=
  fun s => runsFrom_get (hf s)

theorem isRun_find (labels : Session -> OrderedMap String α) (label : String) :
    (find labels label).IsRun := by
  apply isRun_get
  intro s
  split
  · exact isRun_pure _ s
  · exact isRun_throw _ s

theorem find_eq_ok {labels : Session -> OrderedMap String α} {label : String} {s s' : Session}
    {a : α} (h : (find labels label).run s = (.ok a, s')) :
    s' = s ∧ (labels s).get? label = some a := by
  rcases run_bind_eq_ok h with ⟨now, middle, hget, hfound⟩
  cases hget
  split at hfound
  · rename_i hlabel
    cases hfound
    exact ⟨rfl, hlabel⟩
  · cases hfound

theorem isRun_ask (f : Engine -> α) : (ask f).IsRun := fun _ hs => hs.refl

theorem isRun_modify {f : Session -> Session}
    (hf : forall s : Session, s.IsSound -> s.LeadsTo (f s)) :
    (modify f : SessionStep PUnit).IsRun := hf

theorem isRun_note {f : Session -> Session} (hengine : forall s : Session, (f s).engine = s.engine)
    (hallocators : forall s : Session, (f s).allocators = s.allocators) :
    (modify f : SessionStep PUnit).IsRun :=
  isRun_modify fun s hs => hs.keeps (hengine s) (hallocators s)

theorem isRun_note_bind {f : Session -> Session} {g : PUnit -> SessionStep β}
    (hengine : forall s : Session, (f s).engine = s.engine)
    (hallocators : forall s : Session, (f s).allocators = s.allocators)
    (hg : forall u : PUnit, (g u).IsRun) : (modify f >>= g).IsRun :=
  (isRun_note hengine hallocators).bind hg

theorem isRun_change {f : Engine -> Engine} (hf : forall e : Engine, e.LeadsTo (f e)) :
    (change f).IsRun :=
  isRun_modify fun s hs => hs.leadsTo (hf s.engine) rfl

theorem isRun_operate (op : Operation) : (change fun e => e.operate op).IsRun :=
  isRun_change fun e => Engine.leadsTo_operate e op

theorem runsFrom_attempt {f : Engine -> Except Failure α × Engine} {s : Session}
    (hf : s.IsSound -> s.engine.LeadsTo (f s.engine).2) : (attempt f).RunsFrom s := by
  apply RunsFrom.bind (x := get) fun hs => hs.refl
  rintro a s' h
  cases h
  apply RunsFrom.bind (x := set _)
  · intro hs
    exact hs.leadsTo (hf hs) rfl
  · intro _ s' _
    exact isRun_ofExcept _ s'

theorem isRun_attempt {f : Engine -> Except Failure α × Engine}
    (hf : forall e : Engine, e.LeadsTo (f e).2) : (attempt f).IsRun :=
  fun s => runsFrom_attempt fun _ => hf s.engine

theorem isRun_find_note {labels : Session -> OrderedMap String α} {label : String}
    {f : α -> Session -> Session}
    (hengine : forall (a : α) (s : Session), (f a s).engine = s.engine)
    (hallocators : forall (a : α) (s : Session), (f a s).allocators = s.allocators) :
    (do let a ← find labels label
        modify (f a) : SessionStep PUnit).IsRun :=
  (isRun_find labels label).bind fun a => isRun_note (hengine a) (hallocators a)

end SessionStep

namespace Session

open SessionStep

/-!
# Repositories, plans and records
-/

theorem isRun_insertModel (config : ModelConfig) (versions : List Int) :
    (insertModel config versions).IsRun :=
  isRun_note_bind (fun _ => rfl) (fun _ => rfl) fun _ => isRun_get fun _ => isRun_pure _ _

theorem isRun_removeModel (name : String) : (removeModel name).IsRun := by
  apply isRun_get
  intro s
  have herased := isRun_note_bind (f := fun s => { s with repository := s.repository.erase name })
    (fun _ => rfl) (fun _ => rfl) fun _ => isRun_get fun after =>
      isRun_pure (s.repository.contains name, after.repository.size) after
  exact herased s

theorem isRun_scanModels : scanModels.IsRun := isRun_get fun _ => isRun_pure _ _

theorem isRun_dictate (scan : Except Failure (List RepositoryModel)) : (dictate scan).IsRun :=
  isRun_note (fun _ => rfl) fun _ => rfl

theorem isRun_planBackend (model : String) (version : Option Int) (plan : Plan) :
    (planBackend model version plan).IsRun :=
  isRun_note (fun _ => rfl) fun _ => rfl

theorem isRun_takeCalls : takeCalls.IsRun := by
  intro s hs
  exact hs.keeps rfl rfl

theorem isRun_takeEvents : takeEvents.IsRun := by
  intro s hs
  exact hs.keeps rfl rfl

/-!
# Allocators and buffers

An allocator that the client makes by a plan is one that it knows.
-/

theorem isRun_newAllocator (label : String) (plan : AllocatorPlan) :
    (newAllocator label plan.allocator).IsRun := by
  apply isRun_modify
  intro s hs
  have hadded : s.engine.LeadsTo (s.engine.addAllocator plan.allocator).1 :=
    Engine.leadsTo_operate s.engine (.addAllocator plan)
  have hengine : s.LeadsTo { s with engine := (s.engine.addAllocator plan.allocator).1 } :=
    hs.leadsTo hadded rfl
  refine ⟨hadded, hengine.sound.reached, ?_⟩
  intro other n hother
  have hlength : (s.engine.addAllocator plan.allocator).1.allocators.length =
      s.engine.allocators.length + 1 := by
    simp [Engine.addAllocator]
  show n < (s.engine.addAllocator plan.allocator).1.allocators.length
  rw [hlength]
  by_cases hsame : other = label
  · rw [hsame] at hother
    rw [show n = s.engine.allocators.length from
      (Option.some.inj ((OrderedMap.get?_insert_self _ _ _).symm.trans hother)).symm]
    exact Nat.lt_succ_self _
  · have hold := (OrderedMap.get?_insert_of_ne hsame _ _).symm.trans hother
    exact Nat.lt_succ_of_lt (hs.allocators other n hold)

theorem isRun_allocate (allocator label : String) (domain : MemoryDomain) (region : Int)
    (size : Nat) : (allocate allocator label domain region size).IsRun := by
  apply (isRun_find _ _).bind
  intro n
  apply (isRun_ask _).bind
  intro a
  apply (isRun_operate (.allocate n domain region size)).bind
  intro _
  split
  · exact isRun_note_bind (fun _ => rfl) (fun _ => rfl) fun _ => isRun_pure _
  · exact isRun_throw _
  · exact isRun_throw _

theorem isRun_writeBuffer (label : String) (data : Bytes) : (writeBuffer label data).IsRun := by
  apply (isRun_find _ _).bind
  intro old
  exact isRun_note_bind (fun _ => rfl) (fun _ => rfl) fun _ => isRun_pure _

theorem isRun_free (allocator label : String) (given : BufferTriple) :
    (free allocator label given).IsRun := by
  apply (isRun_find _ _).bind
  intro n
  apply (isRun_find _ _).bind
  intro buffer
  refine isRun_note_bind (fun _ => rfl) (fun _ => rfl) ?_
  intro _
  apply (isRun_ask _).bind
  intro a
  apply (isRun_operate (.free n buffer given)).bind
  intro _
  exact isRun_ofExcept _

theorem isRun_usage (allocator : String) (domain : MemoryDomain) (region : Int) :
    (usage allocator domain region).IsRun :=
  (isRun_find _ _).bind fun _ => isRun_ask _

/-!
# Shared memory
-/

theorem isRun_setDirectory (d : Directory) : (setDirectory d).IsRun :=
  isRun_operate (.setDirectory d)

theorem isRun_createRegion (label key : String) (size : Nat) :
    (createRegion label key size).IsRun := by
  apply isRun_get
  intro s
  refine IsRun.bind (isRun_setDirectory _) (fun _ => ?_) s
  apply (isRun_ofExcept _).bind
  intro region
  apply (isRun_operate (.report [region.creationEvent])).bind
  intro _
  exact isRun_note_bind (fun _ => rfl) (fun _ => rfl) fun _ => isRun_pure _

theorem isRun_openRegion (label key : String) : (openRegion label key).IsRun := by
  apply isRun_get
  intro s
  refine IsRun.bind (isRun_ofExcept _) (fun region => ?_) s
  exact isRun_note_bind (fun _ => rfl) (fun _ => rfl) fun _ => isRun_pure _

theorem isRun_unlinkRegion (key : String) : (unlinkRegion key).IsRun :=
  isRun_get fun s => (isRun_ofExcept _).bind (fun d => isRun_setDirectory d) s

theorem isRun_readRegion (label : String) (offset size : Nat) :
    (readRegion label offset size).IsRun :=
  (isRun_find _ _).bind fun _ => isRun_get fun s => isRun_ofExcept _ s

theorem isRun_writeRegion (label : String) (offset : Nat) (data : Bytes) :
    (writeRegion label offset data).IsRun :=
  (isRun_find _ _).bind fun _ => isRun_get fun s =>
    (isRun_ofExcept _).bind (fun d => isRun_setDirectory d) s

theorem isRun_dropRegion (label : String) : (dropRegion label).IsRun :=
  (isRun_find _ _).bind fun _ => isRun_note (fun _ => rfl) fun _ => rfl

theorem isRun_resizeFile (name : String) (size : Nat) : (resizeFile name size).IsRun :=
  isRun_get fun _ => isRun_setDirectory _ _

/-!
# Handles

What becomes of handles of the session's own is reported, and nothing else.
-/

/-- A step on a registry is a run if it is one on the session's own and on that of every server. -/
theorem isRun_registryView {α : Type} (server : Option String) {f : RegistryView -> SessionStep α}
    (hown : forall s : Session, (f s.ownRegistry).RunsFrom s)
    (hserver : forall (s : Session) (n : Nat), (f (s.serverRegistry n)).RunsFrom s) :
    (registryView server >>= f).IsRun := by
  cases server with
  | none => exact isRun_get hown
  | some label =>
      have hfound : (find Session.servers label >>= fun n =>
          get >>= fun s : Session => f (s.serverRegistry n)).IsRun :=
        (isRun_find _ _).bind fun n => isRun_get fun s => hserver s n
      have hsame : registryView (some label) >>= f =
          find Session.servers label >>= fun n =>
            get >>= fun s : Session => f (s.serverRegistry n) := by
        simp [registryView]
      rw [hsame]
      exact hfound

theorem runsFrom_put_own (s : Session) (registry : Registry) (events : List Event) :
    (modify (s.ownRegistry.put registry events) : SessionStep PUnit).RunsFrom s :=
  fun hs => hs.leadsTo (Engine.leadsTo_operate s.engine (.report events)) rfl

theorem isRun_register (server : Option String) (name key : String) (offset size : Nat) :
    (register server name key offset size).IsRun := by
  apply isRun_registryView
  · intro s
    apply runsFrom_get
    exact (runsFrom_put_own s _ _).bind fun _ s' _ => isRun_ofExcept _ s'
  · intro s n
    apply runsFrom_get
    have hput : s.IsSound -> s.LeadsTo { s with
        engine := s.engine.operate (.register n name key offset size) } :=
      fun hs => hs.leadsTo
        (Engine.leadsTo_operate s.engine (.register n name key offset size)) rfl
    exact RunsFrom.bind (x := modify _) hput fun _ s' _ => isRun_ofExcept _ s'

theorem isRun_unregister (server : Option String) (name : String) :
    (unregister server name).IsRun := by
  apply isRun_registryView
  · intro s
    show (SessionStep.ofExcept (s.registry.unregister name) >>= fun registry =>
      modify (s.ownRegistry.put registry [.handleUnregistered name])).RunsFrom s
    cases s.registry.unregister name with
    | error failure => exact isRun_throw _ s
    | ok registry => exact runsFrom_put_own s registry _
  · intro s n
    have hoperated := Engine.leadsTo_operate s.engine (.unregister n name)
    show (SessionStep.ofExcept ((s.engine.server n).registry.unregister name) >>= fun registry =>
      modify ((s.serverRegistry n).put registry [.handleUnregistered name])).RunsFrom s
    simp only [Engine.operate, Engine.unregister] at hoperated
    cases hresult : (s.engine.server n).registry.unregister name with
    | error failure => exact isRun_throw _ s
    | ok registry =>
        rw [hresult] at hoperated
        exact fun hs => hs.leadsTo hoperated rfl

theorem isRun_unregisterAll (server : Option String) : (unregisterAll server).IsRun := by
  apply isRun_registryView
  · intro s
    exact runsFrom_put_own s _ _
  · intro s n
    exact fun hs => hs.leadsTo (Engine.leadsTo_operate s.engine (.unregisterAll n)) rfl

theorem isRun_handleStatus (server : Option String) : (handleStatus server).IsRun :=
  isRun_registryView server (fun s => isRun_pure _ s) fun s _ => isRun_pure _ s

theorem isRun_getBlock (name label : String) : (getBlock name label).IsRun := by
  apply isRun_get
  intro s
  refine IsRun.bind (isRun_ofExcept _) (fun block => ?_) s
  exact isRun_note_bind (fun _ => rfl) (fun _ => rfl) fun _ => isRun_pure _

theorem isRun_readBlock (label : String) (offset size : Nat) :
    (readBlock label offset size).IsRun :=
  (isRun_find _ _).bind fun _ => isRun_get fun s => isRun_ofExcept _ s

theorem isRun_blockElement (label : String) (index stride : Nat) :
    (blockElement label index stride).IsRun :=
  (isRun_find _ _).bind fun _ => isRun_get fun s => isRun_ofExcept _ s

theorem isRun_writeBlock (label : String) (offset : Nat) (data : Bytes) :
    (writeBlock label offset data).IsRun :=
  (isRun_find _ _).bind fun _ => isRun_get fun s =>
    (isRun_ofExcept _).bind (fun d => isRun_setDirectory d) s

theorem isRun_dropBlock (label : String) : (dropBlock label).IsRun :=
  (isRun_find _ _).bind fun _ => isRun_note (fun _ => rfl) fun _ => rfl

/-!
# Requests and responses

A response that takes the place of another has it dropped.
-/

theorem isRun_newProvider (server label model : String) (choice : VersionChoice)
    (header : RequestHeader) : (newProvider server label model choice header).IsRun := by
  apply (isRun_find _ _).bind
  intro n
  apply isRun_get
  intro s
  refine IsRun.bind (isRun_ofExcept _) (fun provider => ?_) s
  exact isRun_note (fun _ => rfl) fun _ => rfl

theorem isRun_provider (label : String) : (provider label).IsRun := isRun_find _ label

theorem isRun_askProvider {α : Type} (label : String) (f : Provider -> Except Failure α) :
    (askProvider label f).IsRun :=
  (isRun_provider label).bind fun _ => isRun_ofExcept _

theorem isRun_changeProvider (label : String) (f : Provider -> Except Failure Provider) :
    (changeProvider label f).IsRun :=
  (isRun_askProvider label f).bind fun _ => isRun_note (fun _ => rfl) fun _ => rfl

theorem isRun_dropProvider (label : String) : (dropProvider label).IsRun :=
  (isRun_provider label).bind fun _ => isRun_note (fun _ => rfl) fun _ => rfl

theorem isRun_submit (server provider : String) : (submit server provider).IsRun := by
  apply (isRun_find _ _).bind
  intro n
  apply (isRun_find _ _).bind
  intro p
  exact isRun_attempt fun e => Engine.leadsTo_operate e (.submit n p e.submissions.length)

theorem IsSound.keepResponse {s : Session} (h : s.IsSound) (label : String) (submission : Nat) :
    s.LeadsTo (s.keepResponse label submission) := by
  unfold Session.keepResponse
  cases s.responses.get? label with
  | none => exact h.keeps rfl rfl
  | some old => exact h.leadsTo (Engine.leadsTo_operate s.engine (.dropResponse old)) rfl

theorem isRun_infer (server provider label : String) : (infer server provider label).IsRun := by
  apply (isRun_change Engine.leadsTo_settle).bind
  intro _
  apply (isRun_submit server provider).bind
  intro n
  apply (isRun_change Engine.leadsTo_settle).bind
  intro _
  apply (isRun_ask _).bind
  intro response?
  cases response? with
  | none => exact (isRun_operate (.ignore n)).bind fun _ => isRun_pure _
  | some response =>
      exact (isRun_modify fun s hs => hs.keepResponse label n).bind fun _ => isRun_pure _

theorem isRun_inferLater (server provider label : String) :
    (inferLater server provider label).IsRun :=
  (isRun_submit server provider).bind fun _ => isRun_note (fun _ => rfl) fun _ => rfl

theorem isRun_response (label : String) : (response label).IsRun := by
  apply (isRun_find _ _).bind
  intro n
  apply (isRun_ask _).bind
  intro response?
  cases response? with
  | none => exact isRun_throw _
  | some response => exact isRun_pure _

theorem isRun_askResponse {α : Type} (label : String) (f : Response -> Except Failure α) :
    (askResponse label f).IsRun :=
  (isRun_response label).bind fun _ => isRun_ofExcept _

theorem isRun_dropResponse (label : String) : (dropResponse label).IsRun :=
  (isRun_find _ _).bind fun n => isRun_modify fun s hs =>
    hs.leadsTo (Engine.leadsTo_operate s.engine (.dropResponse n)) rfl

/-!
# Servers

The allocator that a server is built with is one that the client knows.
-/

theorem isRun_findIfAny (label? : Option String) :
    (label?.mapM fun label => find Session.allocators label).IsRun := by
  cases label? with
  | none => exact isRun_pure none
  | some label => exact (isRun_find _ label).bind fun n => isRun_pure (some n)

theorem known_of_findIfAny {label? : Option String} {s s' : Session} {a : Option Nat}
    (h : (label?.mapM fun label => find Session.allocators label).run s = (.ok a, s')) :
    forall n : Nat, a = some n -> exists label : String, s'.allocators.get? label = some n := by
  rintro n rfl
  cases label? with
  | none => cases h
  | some label =>
      rcases run_bind_eq_ok h with ⟨m, middle, hfound, hpure⟩
      rcases find_eq_ok hfound with ⟨rfl, hlabel⟩
      cases hpure
      exact ⟨label, hlabel⟩

theorem isRun_build (label : String) (options : ServerOptions) (source : ServerSource)
    (allocator : Option String) (isInside : Bool) :
    (build label options source allocator isInside).IsRun := by
  intro s
  apply (isRun_findIfAny allocator s).bind
  intro a s' ha
  apply runsFrom_get
  apply RunsFrom.bind
  · apply runsFrom_attempt
    intro hs
    have hknown : a.all (fun n => n < s'.engine.allocators.length) = true := by
      cases a with
      | none => rfl
      | some n =>
          rcases known_of_findIfAny ha n rfl with ⟨label, hlabel⟩
          exact decide_eq_true (hs.allocators label n hlabel)
    have hbuilt := Engine.leadsTo_operate s'.engine
      (.build options a (s'.scan source.repository) (s'.factory source) isInside)
    rw [Engine.operate, if_pos hknown] at hbuilt
    exact hbuilt
  · intro n after _
    dsimp only
    refine RunsFrom.bind (fun hs => hs.keeps rfl rfl) ?_
    intro _ noted _
    cases s'.servers.get? label with
    | none => exact isRun_ask _ noted
    | some old => exact (isRun_operate (.dropServer old)).bind (fun _ => isRun_ask _) noted

theorem isRun_server (label : String) : (server label).IsRun :=
  (isRun_find _ _).bind fun _ => isRun_ask _

theorem isRun_makeHandle (server label : String) : (makeHandle server label).IsRun :=
  (isRun_find _ _).bind fun _ => isRun_note (fun _ => rfl) fun _ => rfl

theorem isRun_handle (label : String) : (handle label).IsRun :=
  (isRun_find _ _).bind fun _ => isRun_ask _

theorem isRun_status (labels : Session -> OrderedMap String Nat) (label : String) :
    (status labels label).IsRun :=
  (isRun_find _ _).bind fun _ => isRun_ask _

theorem isRun_modelStatus (labels : Session -> OrderedMap String Nat) (label name : String) :
    (modelStatus labels label name).IsRun :=
  (isRun_find _ _).bind fun _ => isRun_get fun s =>
    (isRun_ofExcept _).bind (fun _ => isRun_pure _) s

theorem isRun_poll (label : String) : (poll label).IsRun := by
  apply (isRun_find _ _).bind
  intro n
  apply isRun_get
  intro s
  exact isRun_attempt (fun e => Engine.leadsTo_operate e (.poll n _ _)) s

theorem isRun_stop (label : String) : (stop label).IsRun :=
  (isRun_find _ _).bind fun n => isRun_attempt fun e => Engine.leadsTo_stop e n

theorem isRun_beginStop (server label : String) : (beginStop server label).IsRun :=
  (isRun_find _ _).bind fun n => isRun_modify fun s hs =>
    hs.leadsTo (Engine.leadsTo_beginStop s.engine n) rfl

theorem isRun_joinStop (label : String) : (joinStop label).IsRun :=
  (isRun_find _ _).bind fun n => isRun_attempt fun e => Engine.leadsTo_joinStop e n

theorem isRun_dropServer (label : String) : (dropServer label).IsRun := by
  apply (isRun_find _ _).bind
  intro n
  exact isRun_note_bind (fun _ => rfl) (fun _ => rfl) fun _ => isRun_operate (.dropServer n)

theorem isRun_run : run.IsRun := isRun_change Engine.leadsTo_settle

theorem isRun_openGate (permits : Nat) : (openGate permits).IsRun :=
  isRun_operate (.openGate permits)

theorem isRun_closeGate : closeGate.IsRun := isRun_operate .closeGate

theorem isRun_close : close.IsRun :=
  (isRun_operate .close).bind fun _ => isRun_note (fun _ => rfl) fun _ => rfl

/-!
# Conversations

The end of a step drops responses, and that is all it does to the engine.
-/

theorem IsSound.keepResponses {s : Session} (h : s.IsSound) (arrivals : List Arrival) :
    s.LeadsTo (arrivals.foldl (fun s a => s.keepResponse a.label a.submission) s) := by
  induction arrivals generalizing s with
  | nil => exact h.refl
  | cons a rest ih =>
      have hfirst := h.keepResponse a.label a.submission
      exact hfirst.trans (ih hfirst.sound)

theorem IsSound.endStep {s : Session} (h : s.IsSound) : s.LeadsTo s.endStep.2 := by
  have hseen : s.LeadsTo { s with seenCompletions := s.engine.completions.length } :=
    h.keeps rfl rfl
  exact hseen.trans (hseen.sound.keepResponses s.arrivals)

/-- The session after some steps, each of which has been brought to its end. -/
def afterSteps (s : Session) (steps : List (SessionStep Unit)) : Session :=
  steps.foldl (fun s step => (step.run s).2.endStep.2) s

theorem IsSound.afterSteps {s : Session} (h : s.IsSound) {steps : List (SessionStep Unit)}
    (hsteps : forall step : SessionStep Unit, step ∈ steps -> step.IsRun) :
    s.LeadsTo (s.afterSteps steps) := by
  induction steps generalizing s with
  | nil => exact h.refl
  | cons step rest ih =>
      have htaken := hsteps step List.mem_cons_self s h
      have hfirst := htaken.trans htaken.sound.endStep
      exact hfirst.trans (ih hfirst.sound fun other hother =>
        hsteps other (List.mem_cons_of_mem _ hother))

theorem engine_afterSteps {steps : List (SessionStep Unit)}
    (hsteps : forall step : SessionStep Unit, step ∈ steps -> step.IsRun) :
    exists ops : List Operation, (empty.afterSteps steps).engine = Engine.reached ops :=
  (isSound_empty.afterSteps hsteps).sound.reached

end Session

end InferenceEngine
