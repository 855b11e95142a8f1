import InferenceEngine.Proofs.Regions.Handles
import InferenceEngine.Proofs.Regions.Histories
import InferenceEngine.Proofs.Servers.Relations

/-!
# Handles of servers that have stopped

A server that stops releases its handles, and whatever happens to it afterwards brings none of them
back.  But nothing keeps clients from registering others with it: a registration looks at the names
and the files alone.  So a server that has stopped has exactly those handles that have been
registered with it since.
-/

namespace InferenceEngine

/-!
# Handles and the stop
-/

/-- What becomes of the handles of a server while nobody registers any or takes any away: they stay
as they are, or it stops and they are released. -/
inductive Server.Relinquishes (s s' : Server) : Prop where
  | keeps (hstate : s'.state = .stopped ↔ s.state = .stopped)
      (hregistry : s'.registry = s.registry) : Relinquishes s s'
  | stops (hrunning : s.state ≠ .stopped) (hstopped : s'.state = .stopped)
      (hregistry : s'.registry = s.registry.unregisterAll.1) : Relinquishes s s'

theorem Server.endures_relinquishes : Server.Endures Server.Relinquishes where
  refl s := .keeps Iff.rfl rfl
  trans := by
    intro s middle s' h k
    cases h with
    | keeps hstate hregistry =>
        cases k with
        | keeps kstate kregistry => exact .keeps (kstate.trans hstate) (kregistry.trans hregistry)
        | stops hrunning hstopped kregistry =>
            rw [hregistry] at kregistry
            exact .stops (fun hs => hrunning (hstate.2 hs)) hstopped kregistry
    | stops hrunning hstopped hregistry =>
        cases k with
        | keeps kstate kregistry =>
            exact .stops hrunning (kstate.2 hstopped) (kregistry.trans hregistry)
        | stops krunning _ _ => exact absurd hstopped krunning
  lasts h := by
    rw [h]
    exact .keeps Iff.rfl rfl
  askToStop s := by
    unfold Server.askToStop
    split
    · rename_i hserving
      refine .keeps ?_ rfl
      rw [hserving]
      exact ⟨fun h => (by cases h), fun h => (by cases h)⟩
    · exact .keeps Iff.rfl rfl
  shutDown s := by
    unfold Server.shutDown
    split
    · exact .keeps Iff.rfl rfl
    · rename_i hrunning
      exact .stops hrunning rfl rfl
  letGo s := .keeps Iff.rfl rfl

/-!
# Registrations with a server

Registering handles and taking them away neither stops a server nor starts it.
-/

/-- Whether an operation takes the handle of a name from a server. -/
def Operation.Releases (k : Nat) (name : String) : Operation -> Prop
  | .unregister server other => server = k ∧ other = name
  | .unregisterAll server => server = k
  | _ => False

namespace Engine

def Registers (e : Engine) (k : Nat) (name key : String) (offset size : Nat) (h : Handle) : Prop :=
  (e.server k).registry.Registers e.directory (e.holdsMapping k) name key offset size h

/-- What an operation is meant to do to the handles of a server. -/
def edit (k : Nat) (e : Engine) : Operation -> Registry.Edit
  | .register server name key offset size =>
      if server = k then .register e.directory (e.holdsMapping k) name key offset size else .keep
  | .unregister server name => if server = k then .unregister name else .keep
  | .unregisterAll server => if server = k then .clear else .keep
  | _ => .keep

variable {e : Engine} {k : Nat}

theorem server_setRegistry (hk : k < e.servers.length) (registry : Registry) :
    (e.setRegistry k registry).server k = { e.server k with registry := registry } := by
  unfold setRegistry
  rw [server_modifyServer, if_pos ⟨rfl, hk⟩]

theorem server_setRegistry_of_ne {n : Nat} (hn : k ≠ n) (registry : Registry) :
    (e.setRegistry n registry).server k = e.server k := by
  unfold setRegistry
  rw [server_modifyServer, if_neg fun h => hn h.1]

theorem state_of_registration {op : Operation} (h : op.isRegistration = true) :
    ((e.operate op).server k).state = (e.server k).state := by
  have hset : forall (n : Nat) (registry : Registry),
      ((e.setRegistry n registry).server k).state = (e.server k).state := by
    intro n registry
    unfold setRegistry
    rw [server_modifyServer]
    split
    · rename_i hk
      rw [hk.1]
    · rfl
  cases op with
  | register server name key offset size => exact hset server _
  | unregister server name =>
      simp only [Engine.operate, unregister]
      split
      · exact hset server _
      · rfl
  | unregisterAll server => exact hset server _
  | _ => cases h

theorem relinquishes_operate (hk : k < e.servers.length) {op : Operation}
    (h : op.isRegistration = false) : (e.server k).Relinquishes ((e.operate op).server k) := by
  by_cases hload : op.isLoad = true
  · cases op with
    | build options allocator scan factory isInside =>
        simp only [Engine.operate]
        split
        · exact Server.endures_relinquishes.build (Nat.ne_of_lt hk) options allocator scan factory
            isInside
        · exact Server.endures_relinquishes.refl _
    | poll server scan factory =>
        exact Server.endures_relinquishes.poll (fun _ _ _ => .keeps Iff.rfl rfl) e scan factory
    | _ => cases hload
  · exact Server.endures_relinquishes.operate e (Bool.eq_false_iff.2 hload) h k

theorem handles_of_registration (hk : k < e.servers.length) {op : Operation}
    (h : op.isRegistration = true) :
    ((e.operate op).server k).registry.handles = (e.server k).registry.edited (e.edit k op) := by
  have hother : forall (n : Nat) (registry : Registry), n ≠ k ->
      ((e.setRegistry n registry).server k).registry.handles = (e.server k).registry.handles := by
    intro n registry hn
    rw [server_setRegistry_of_ne (Ne.symm hn)]
  have hown : forall registry : Registry,
      ((e.setRegistry k registry).server k).registry.handles = registry.handles := by
    intro registry
    rw [server_setRegistry hk]
  cases op with
  | register server name key offset size =>
      by_cases hserver : server = k
      · rw [show e.edit k (.register server name key offset size) = _ from if_pos hserver, hserver]
        exact hown _
      · rw [show e.edit k (.register server name key offset size) = _ from if_neg hserver]
        exact hother server _ hserver
  | unregister server name =>
      by_cases hserver : server = k
      · rw [show e.edit k (.unregister server name) = _ from if_pos hserver, hserver]
        cases hresult : (e.server k).registry.unregister name with
        | ok registry =>
            simp only [operate, unregister, Registry.edited, hresult]
            exact hown registry
        | error failure => simp only [operate, unregister, Registry.edited, hresult]
      · rw [show e.edit k (.unregister server name) = _ from if_neg hserver]
        simp only [operate, unregister]
        split
        · exact hother server _ hserver
        · rfl
  | unregisterAll server =>
      by_cases hserver : server = k
      · rw [show e.edit k (.unregisterAll server) = _ from if_pos hserver, hserver]
        exact hown _
      · rw [show e.edit k (.unregisterAll server) = _ from if_neg hserver]
        exact hother server _ hserver
  | _ => cases h

/-- An operation does what it says to the handles of a server, or the server stops and they are
released. -/
theorem handles_operate (hk : k < e.servers.length) (op : Operation) :
    ((e.operate op).server k).registry.handles = (e.server k).registry.edited (e.edit k op) ∨
      (e.server k).state ≠ .stopped ∧ ((e.operate op).server k).registry.handles = .empty := by
  cases hregistration : op.isRegistration with
  | true => exact .inl (handles_of_registration hk hregistration)
  | false =>
      have hkeep : e.edit k op = .keep := by
        cases op <;> first | rfl | cases hregistration
      cases relinquishes_operate hk hregistration with
      | keeps _ hregistry =>
          rw [hkeep, hregistry]
          exact .inl rfl
      | stops hrunning _ hregistry =>
          rw [hregistry]
          exact .inr ⟨hrunning, rfl⟩

theorem makes_iff {op : Operation} {name : String} {h : Handle} :
    (e.server k).registry.Makes (e.edit k op) name h ↔
      exists (key : String) (offset size : Nat),
        op = .register k name key offset size ∧ e.Registers k name key offset size h := by
  constructor
  · rintro ⟨d, elsewhere, key, offset, size, hedit, hmade⟩
    cases op with
    | register server other key' offset' size' =>
        by_cases hserver : server = k
        · rw [show e.edit k (.register server other key' offset' size') = _ from
            if_pos hserver] at hedit
          cases hedit
          rw [hserver]
          exact ⟨key, offset, size, rfl, hmade⟩
        · rw [show e.edit k (.register server other key' offset' size') = _ from
            if_neg hserver] at hedit
          cases hedit
    | unregister server | unregisterAll server =>
        by_cases hserver : server = k <;> simp [edit, hserver] at hedit
    | _ => cases hedit
  · rintro ⟨key, offset, size, rfl, hmade⟩
    exact ⟨_, _, key, offset, size, if_pos rfl, hmade⟩

theorem Registers.get?_operate {name key : String} {offset size : Nat} {h : Handle}
    (hk : k < e.servers.length) (hmade : e.Registers k name key offset size h) :
    ((e.operate (.register k name key offset size)).server k).registry.handles.get? name =
      some h := by
  rw [handles_of_registration hk rfl, Registry.get?_edited]
  exact .inr (makes_iff.2 ⟨key, offset, size, rfl, hmade⟩)

/-- A server that is built in an operation comes without handles, and one that does not exist has
none. -/
theorem handles_of_missing (hk : e.servers.length ≤ k) (op : Operation) :
    ((e.operate op).server k).registry.handles = .empty := by
  have hmissing : e.server k = default := by
    simp [Engine.server, hk]
  have hnone : forall s : Server, (e.server k).Relinquishes s -> s.registry.handles = .empty := by
    intro s h
    cases h with
    | keeps _ hregistry =>
        rw [hregistry, hmissing]
        rfl
    | stops _ _ hregistry =>
        rw [hregistry]
        rfl
  have hset : forall (n : Nat) (registry : Registry),
      ((e.setRegistry n registry).server k).registry.handles = .empty := by
    intro n registry
    unfold setRegistry
    rw [server_modifyServer, if_neg (by omega), hmissing]
    rfl
  cases op with
  | build options allocator scan factory isInside =>
      simp only [operate]
      split
      · rcases Server.endures_relinquishes.build_cases e k options allocator scan factory isInside
          with hkept | ⟨_, hregistry⟩
        · exact hnone _ hkept
        · rw [hregistry]
          rfl
      · exact hnone _ (Server.endures_relinquishes.refl _)
  | poll server scan factory =>
      exact hnone _ (Server.endures_relinquishes.poll (fun _ _ _ => .keeps Iff.rfl rfl) e scan
        factory)
  | register server name key offset size => exact hset server _
  | unregister server name =>
      simp only [operate, unregister]
      split
      · exact hset server _
      · exact hnone _ (Server.endures_relinquishes.refl _)
  | unregisterAll server => exact hset server _
  | _ => exact hnone _ (Server.endures_relinquishes.operate e rfl rfl k)

/-- A handle that is registered after an operation was so before it, or the operation has registered
it. -/
theorem registered_step {op : Operation} {name : String} {h : Handle}
    (hget : ((e.operate op).server k).registry.handles.get? name = some h) :
    (e.server k).registry.handles.get? name = some h ∨
    exists (key : String) (offset size : Nat),
      op = .register k name key offset size ∧ e.Registers k name key offset size h := by
  rcases Nat.lt_or_ge k e.servers.length with hlt | hge
  · rcases handles_operate hlt op with hedited | ⟨_, hempty⟩
    · rw [hedited, Registry.get?_edited, makes_iff] at hget
      exact hget.imp And.left id
    · rw [hempty] at hget
      cases hget
  · rw [handles_of_missing hge op] at hget
    cases hget

/-!
# Runs
-/

theorem length_le_after (e : Engine) (ops : List Operation) :
    e.servers.length ≤ (e.after ops).servers.length := (tends_after e ops).length

theorem stopped_after (hk : k < e.servers.length) (hstopped : (e.server k).state = .stopped)
    (ops : List Operation) : ((e.after ops).server k).state = .stopped :=
  Server.stopped_of_rank_le ((tends_after e ops).server k hk).rank_le hstopped

/-- A server that has stopped, with what operations do to its handles. -/
def keeper (k : Nat) : Registry.Keeper Engine Operation where
  step := operate
  registry e := (e.server k).registry
  edit := edit k
  releases := Operation.Releases k
  isIntact e := k < e.servers.length ∧ (e.server k).state = .stopped
  intact e op h := ⟨Nat.lt_of_lt_of_le h.1 (length_le_after e [op]), stopped_after h.1 h.2 [op]⟩
  handles e op h := (handles_operate h.1 op).resolve_right fun hrunning => hrunning.1 h.2
  releases_iff e op name _ := by
    cases op with
    | register server | unregister server | unregisterAll server =>
        by_cases hserver : server = k <;>
          simp [edit, Operation.Releases, Registry.Edit.Releases, hserver]
    | _ => exact Iff.rfl

/-- The handles of a stopped server after operations are those of before that none of them
releases, and those that one of them registers and no later one releases. -/
theorem registered_after (hk : k < e.servers.length) (hstopped : (e.server k).state = .stopped)
    (ops : List Operation) {name : String} {h : Handle} :
    ((e.after ops).server k).registry.handles.get? name = some h ↔
      ((e.server k).registry.handles.get? name = some h ∧
        forall op : Operation, op ∈ ops -> ¬ op.Releases k name) ∨
      exists (before later : List Operation) (key : String) (offset size : Nat),
        ops = before ++ .register k name key offset size :: later ∧
          (e.after before).Registers k name key offset size h ∧
          forall op : Operation, op ∈ later -> ¬ op.Releases k name := by
  have hhistory := (keeper k).registered_after ⟨hk, hstopped⟩ ops name h
  refine hhistory.trans (or_congr Iff.rfl ?_)
  constructor
  · rintro ⟨before, op, later, hsplit, hmakes, hlater⟩
    rcases makes_iff.1 hmakes with ⟨key, offset, size, rfl, hmade⟩
    exact ⟨before, later, key, offset, size, hsplit, hmade, hlater⟩
  · rintro ⟨before, later, key, offset, size, hsplit, hmade, hlater⟩
    exact ⟨before, _, later, hsplit, makes_iff.2 ⟨key, offset, size, rfl, hmade⟩, hlater⟩

/-!
# Mappings

A mapping is held by requests in flight only, apart from handles.
-/

theorem holdsMapping_eq_true {number : Nat} (h : e.holdsMapping k number = true) :
    exists t : Submission, t ∈ e.submissions ∧ t.server = k ∧ t.phase.isOpen = true ∧
      number ∈ t.mappings := by
  unfold holdsMapping at h
  obtain ⟨t, ht, hholds⟩ := List.any_eq_true.1 h
  rw [Bool.and_eq_true, decide_eq_true_eq, List.contains_iff_mem] at hholds
  refine ⟨t, ht, hholds.1, ?_, hholds.2⟩
  have hmem := hholds.2
  unfold Submission.mappings at hmem
  split at hmem
  · rename_i hbefore
    cases hphase : t.phase <;> rw [hphase] at hbefore <;> first | rfl | cases hbefore
  · split at hmem
    · assumption
    · cases hmem

/-- What is held is held by a handle of the server or by one of its requests in flight. -/
theorem isHeld_eq_true {number : Nat}
    (h : (e.server k).registry.isHeld (e.holdsMapping k) number = true) :
    (exists (name : String) (handle : Handle),
      (e.server k).registry.handles.get? name = some handle ∧ handle.mapping.number = number) ∨
    exists t : Submission, t ∈ e.submissions ∧ t.server = k ∧ t.phase.isOpen = true ∧
      number ∈ t.mappings := by
  unfold Registry.isHeld at h
  rw [Bool.or_eq_true] at h
  rcases h with hregistered | hrequest
  · obtain ⟨handle, hhandle, hnumber⟩ := List.any_eq_true.1 hregistered
    obtain ⟨name, hget⟩ := OrderedMap.mem_values_iff.1 hhandle
    exact .inl ⟨name, handle, hget, of_decide_eq_true hnumber⟩
  · exact .inr (holdsMapping_eq_true hrequest)

/-!
# Stopped servers

A server stops without handles.
-/

theorem handles_of_stop (hk : k < e.servers.length) (hrunning : (e.server k).state ≠ .stopped)
    {op : Operation} (hstopped : ((e.operate op).server k).state = .stopped) :
    ((e.operate op).server k).registry.handles = .empty := by
  cases hregistration : op.isRegistration with
  | true =>
      rw [state_of_registration hregistration] at hstopped
      exact absurd hstopped hrunning
  | false =>
      cases relinquishes_operate hk hregistration with
      | keeps hstate _ => exact absurd (hstate.1 hstopped) hrunning
      | stops _ _ hregistry =>
          rw [hregistry]
          rfl

/-- The handles of a server that has stopped without any are those that have been registered with it
since and not been released. -/
theorem registered_after_stop (hk : k < e.servers.length)
    (hstopped : (e.server k).state = .stopped)
    (hempty : (e.server k).registry.handles = .empty) (ops : List Operation) {name : String}
    {h : Handle} : ((e.after ops).server k).registry.handles.get? name = some h ↔
      exists (before later : List Operation) (key : String) (offset size : Nat),
        ops = before ++ .register k name key offset size :: later ∧
          (e.after before).Registers k name key offset size h ∧
          forall op : Operation, op ∈ later -> ¬ op.Releases k name := by
  rw [registered_after hk hstopped ops, hempty]
  constructor
  · rintro (⟨hold, _⟩ | hmade)
    · cases hold
    · exact hmade
  · exact .inr

/-- A server that has stopped without handles has none at any time if and only if all registrations
with it fail. -/
theorem no_handles_after_stop_iff (hk : k < e.servers.length)
    (hstopped : (e.server k).state = .stopped)
    (hempty : (e.server k).registry.handles = .empty) (ops : List Operation) :
    (forall before later : List Operation, ops = before ++ later ->
      ((e.after before).server k).registry.handles = .empty) ↔
    forall (before later : List Operation) (name key : String) (offset size : Nat),
      ops = before ++ .register k name key offset size :: later ->
        exists failure : Failure, (((e.after before).server k).registry.register
          (e.after before).directory ((e.after before).holdsMapping k) name key offset size).1 =
            .error failure := by
  constructor
  · rintro hnone before later name key offset size rfl
    have hlength := Nat.lt_of_lt_of_le hk (length_le_after e before)
    have hafter := hnone (before ++ [.register k name key offset size]) later
      (by rw [List.append_assoc]; rfl)
    rw [after_append] at hafter
    rcases Registry.registers_or_fails _ _ _ name key offset size with ⟨h, hmade⟩ | hfailed
    · have hfound := Registers.get?_operate hlength hmade
      rw [show (e.after before).operate (.register k name key offset size) =
        (e.after before).after [.register k name key offset size] from rfl, hafter] at hfound
      cases hfound
    · exact hfailed
  · rintro hfail before later rfl
    apply OrderedMap.ext_get?
    intro name
    cases hget : ((e.after before).server k).registry.handles.get? name with
    | none => rfl
    | some h =>
        obtain ⟨first, rest, key, offset, size, rfl, hmade, _⟩ :=
          (registered_after_stop hk hstopped hempty before).1 hget
        obtain ⟨failure, hfailed⟩ := hfail first (rest ++ later) name key offset size
          (by rw [List.append_assoc, List.cons_append])
        have hdone := hmade.done
        rw [hfailed] at hdone
        cases hdone

/-- Once a server has stopped it stays so, and its handles are gone.  Whatever operations follow,
the handles that it has are those that have been registered with it since and not been released, and
it has none at any time if and only if all registrations with it fail.  A mapping is held by one of
these handles or by a request in flight. -/
theorem handles_of_stopped_server {ops : List Operation} {op : Operation} {k : Nat}
    (hk : k < (reached ops).servers.length)
    (hrunning : ((reached ops).server k).state ≠ .stopped)
    (hstopped : ((reached (ops ++ [op])).server k).state = .stopped) (more : List Operation) :
    ((reached (ops ++ op :: more)).server k).state = .stopped ∧
    ((reached (ops ++ [op])).server k).registry.handles = .empty ∧
    (forall (name : String) (h : Handle),
      ((reached (ops ++ op :: more)).server k).registry.handles.get? name = some h ↔
        exists (before later : List Operation) (key : String) (offset size : Nat),
          more = before ++ .register k name key offset size :: later ∧
          (reached (ops ++ op :: before)).Registers k name key offset size h ∧
          forall other : Operation, other ∈ later -> ¬ other.Releases k name) ∧
    ((forall before later : List Operation, more = before ++ later ->
        ((reached (ops ++ op :: before)).server k).registry.handles = .empty) ↔
      forall (before later : List Operation) (name key : String) (offset size : Nat),
        more = before ++ .register k name key offset size :: later ->
          exists failure : Failure, (((reached (ops ++ op :: before)).server k).registry.register
            (reached (ops ++ op :: before)).directory
            ((reached (ops ++ op :: before)).holdsMapping k) name key offset size).1 =
              .error failure) ∧
    forall number : Nat,
      ((reached (ops ++ op :: more)).server k).registry.isHeld
          ((reached (ops ++ op :: more)).holdsMapping k) number = true ->
        (exists (name : String) (h : Handle),
          ((reached (ops ++ op :: more)).server k).registry.handles.get? name = some h ∧
            h.mapping.number = number) ∨
        exists t : Submission, t ∈ (reached (ops ++ op :: more)).submissions ∧ t.server = k ∧
          t.phase.isOpen = true ∧ number ∈ t.mappings := by
  have hreached : forall rest : List Operation,
      reached (ops ++ op :: rest) = (reached (ops ++ [op])).after rest := by
    intro rest
    unfold reached
    rw [← after_append, List.append_assoc]
    rfl
  have hconcat : reached (ops ++ [op]) = (reached ops).operate op := reached_concat ops op
  have hempty : ((reached (ops ++ [op])).server k).registry.handles = .empty := by
    rw [hconcat] at hstopped ⊢
    exact handles_of_stop hk hrunning hstopped
  have hlength : k < (reached (ops ++ [op])).servers.length := by
    rw [hconcat]
    exact Nat.lt_of_lt_of_le hk (tends_operate _ op).length
  generalize reached (ops ++ [op]) = start at hreached hstopped hempty hlength ⊢
  simp only [hreached]
  exact ⟨stopped_after hlength hstopped more, hempty,
    fun _ _ => registered_after_stop hlength hstopped hempty more,
    no_handles_after_stop_iff hlength hstopped hempty more, fun _ => isHeld_eq_true⟩

/-- A server is built without models and a client calls for its stop. -/
def stoppedRun : List Operation :=
  [.build { ServerOptions.default with executionSlots := 1 } none (.ok []) none true, .callStop 0]

def lateRegistration : List Operation :=
  [.setDirectory (Directory.empty.addFile "k" 8), .register 0 "h" "k" 0 8]

theorem handles_of_the_stopped_server :
    0 < (reached (stoppedRun.take 1)).servers.length ∧
    ((reached (stoppedRun.take 1)).server 0).state ≠ .stopped ∧
    ((reached stoppedRun).server 0).state = .stopped ∧
    ((reached stoppedRun).server 0).registry.handles = .empty ∧
    exists h : Handle,
      ((reached (stoppedRun ++ lateRegistration)).server 0).registry.handles.get? "h" = some h ∧
      exists (before later : List Operation) (key : String) (offset size : Nat),
        lateRegistration = before ++ .register 0 "h" key offset size :: later ∧
          (reached (stoppedRun ++ before)).Registers 0 "h" key offset size h := by
  have hlength : 0 < (reached (stoppedRun.take 1)).servers.length := by decide
  have hrunning : ((reached (stoppedRun.take 1)).server 0).state ≠ .stopped := by decide
  have hstopped : ((reached stoppedRun).server 0).state = .stopped := by decide
  obtain ⟨_, hempty, hhandles, _, _⟩ :=
    handles_of_stopped_server hlength hrunning hstopped lateRegistration
  refine ⟨hlength, hrunning, hstopped, hempty, _, rfl, ?_⟩
  obtain ⟨before, later, key, offset, size, hsplit, hmade, _⟩ := (hhandles "h" _).1 rfl
  exact ⟨before, later, key, offset, size, hsplit, hmade⟩

/-- The server has stopped, and its status of shared memory shows the handle that a client has
registered since. -/
theorem stopped_server_takes_handle :
    ((reached stoppedRun).server 0).state = .stopped ∧
    ((reached stoppedRun).server 0).registry.status = [] ∧
    ((reached (stoppedRun ++ lateRegistration)).server 0).state = .stopped ∧
    ((reached (stoppedRun ++ lateRegistration)).server 0).registry.status =
      [⟨"h", "k", 0, 8⟩] := by
  refine ⟨by decide, by decide, by decide, by decide⟩

end Engine

end InferenceEngine
