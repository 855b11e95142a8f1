import InferenceEngine.Proofs.Runs.Reach
import InferenceEngine.Proofs.Servers.Steps

/-!
# Relations that last

Apart from models and handles little can happen to a server: its slots and its count change, it is
asked to stop, it stops, and it is let go.  A relation that holds across each of these holds
between a server and whatever the engine makes of it, as long as nobody loads models for it or
registers handles with it.
-/

namespace InferenceEngine

/-- A relation that holds across whatever happens to a server apart from models and handles. -/
structure Server.Endures (R : Server -> Server -> Prop) : Prop where
  refl : forall s : Server, R s s
  trans : forall {s middle s' : Server}, R s middle -> R middle s' -> R s s'
  lasts : forall {s s' : Server}, s.Lasts s' -> R s s'
  askToStop : forall s : Server, R s s.askToStop.1
  shutDown : forall s : Server, R s s.shutDown.1
  letGo : forall s : Server, R s { s with isKept := false }

def Operation.isLoad : Operation -> Bool
  | .build .. | .poll .. => true
  | _ => false

/-- Whether an operation may register handles or take them away. -/
def Operation.isRegistration : Operation -> Bool
  | .register .. | .unregister .. | .unregisterAll .. => true
  | _ => false

namespace Engine

/-- Whether a relation holds between all servers and what has become of them. -/
def Along (R : Server -> Server -> Prop) (e e' : Engine) : Prop :=
  forall k : Nat, R (e.server k) (e'.server k)

end Engine

namespace Server.Endures

open Engine

variable {R : Server -> Server -> Prop} (hR : Server.Endures R)

include hR

theorem of_servers {e e' : Engine} (h : e'.servers = e.servers) : Along R e e' := by
  intro k
  rw [server_of_servers h]
  exact hR.refl _

theorem along_refl (e : Engine) : Along R e e := hR.of_servers rfl

theorem along_trans {e middle e' : Engine} (h : Along R e middle) (k : Along R middle e') :
    Along R e e' :=
  fun n => hR.trans (h n) (k n)

theorem since {e middle e' : Engine} (k : Along R middle e')
    (h : middle.servers = e.servers) : Along R e e' :=
  hR.along_trans (hR.of_servers h) k

theorem upTo {e middle e' : Engine} (h : Along R e middle)
    (k : e'.servers = middle.servers) : Along R e e' :=
  hR.along_trans h (hR.of_servers k)

theorem foldl {α : Type} {f : Engine -> α -> Engine}
    (h : forall (e : Engine) (a : α), Along R e (f e a)) (xs : List α) (e : Engine) :
    Along R e (xs.foldl f e) := by
  induction xs generalizing e with
  | nil => exact hR.along_refl e
  | cons x rest ih => exact hR.along_trans (h e x) (ih (f e x))

theorem modifyServer {e : Engine} {n : Nat} {f : Server -> Server}
    (h : R (e.server n) (f (e.server n))) : Along R e (e.modifyServer n f) := by
  intro k
  rw [server_modifyServer]
  split
  · rename_i hk
    rw [hk.1]
    exact h
  · exact hR.refl _

/-!
# Requests
-/

theorem of_spares {e e' : Engine} (h : e.Spares e') : Along R e e' :=
  fun k => hR.lasts (h.server k)

theorem finish (e : Engine) (n : Nat)
    (result : Except Failure (List (String × OutputStorage))) : Along R e (e.finish n result) :=
  hR.of_spares ((spares_respond e n result).trans (spares_comeBack _ n))

theorem cancel (e : Engine) (n : Nat) : Along R e (e.cancel n) := by
  unfold Engine.cancel
  split
  · exact hR.of_spares ((spares_giveUp e n).trans (spares_comeBack _ n))
  · exact hR.along_refl e

theorem unwind (e : Engine) (n : Nat) (slots : List OutputSlot) : Along R e (e.unwind n slots) :=
  hR.since (hR.of_spares ((spares_giveUp _ n).trans (spares_comeBack _ n))) rfl

theorem conclude (e : Engine) (n : Nat) (result : Except Failure Unit)
    (slots : List OutputSlot) : Along R e (e.conclude n result slots) := by
  have htaken : (e.takeSlots n result slots).servers = e.servers := rfl
  exact hR.since (hR.of_spares ((spares_respond _ n _).trans (spares_comeBack _ n))) htaken

theorem proceed (e : Engine) (n : Nat) (next : Behaviour) : Along R e (e.proceed n next) := by
  induction next generalizing e with
  | finish result slots => exact hR.conclude e n result slots
  | panic slots => exact hR.conclude e n _ slots
  | awaitGate slots resume ih =>
      unfold Engine.proceed
      split
      · exact hR.since (ih false _) rfl
      · split
        · exact hR.of_servers rfl
        · exact hR.since (ih true _) rfl

theorem carryOut (e : Engine) (n : Nat) : Along R e (e.carryOut n) := by
  simp only [Engine.carryOut]
  split
  · exact hR.finish e n _
  · split
    · exact hR.since (hR.finish _ n _) rfl
    · exact hR.since (hR.unwind _ n _) rfl
    · exact hR.since (hR.proceed _ n _) rfl

theorem execute (e : Engine) (n : Nat) : Along R e (e.execute n) :=
  hR.since (hR.carryOut _ n) rfl

theorem runRequest (e : Engine) (n : Nat) : Along R e (e.runRequest n) := by
  unfold Engine.runRequest
  split
  · split
    · rename_i e' htake
      rcases takeSlot?_eq_some htake with ⟨free, rfl⟩
      have htaken : Along R e (e.modifyServer (e.submission n).server fun s =>
          { s with freeSlots := free }) := hR.modifyServer (hR.lasts rfl)
      exact hR.along_trans htaken (hR.since (hR.execute _ n) rfl)
    · have hwaiting : Along R e (e.modifyServer (e.submission n).server fun s =>
          { s with waiting := s.waiting ++ [n] }) := hR.modifyServer (hR.lasts rfl)
      exact hR.upTo hwaiting rfl
  · exact hR.execute e n
  · exact hR.since (hR.proceed _ n _) rfl
  · exact hR.along_refl e

theorem submit (e : Engine) (server callback : Nat) (provider : Provider) :
    Along R e (e.submit server provider callback).2 := by
  unfold Engine.submit
  split
  · exact hR.along_refl e
  · split
    · exact hR.along_refl e
    · split
      · exact hR.of_servers (servers_countOut_countIn e server)
      · have hcounted : Along R e (e.countIn server) := hR.modifyServer (hR.lasts rfl)
        apply hR.along_trans hcounted
        simp only [launch]
        split
        · exact hR.of_servers rfl
        · exact hR.since (hR.cancel _ _) rfl

/-!
# Stopping
-/

theorem along_askToStop (e : Engine) (n : Nat) : Along R e (e.askToStop n) :=
  hR.upTo (hR.modifyServer (f := fun _ => (e.server n).askToStop.1) (hR.askToStop _)) rfl

theorem along_shutDown (e : Engine) (n : Nat) : Along R e (e.shutDown n) :=
  hR.upTo (hR.modifyServer (f := fun _ => (e.server n).shutDown.1) (hR.shutDown _)) rfl

theorem collect (e : Engine) (n : Nat) : Along R e (e.collect n) := by
  unfold Engine.collect
  split
  · exact hR.along_refl e
  · exact hR.upTo (hR.along_shutDown e n) rfl

theorem dropServer (e : Engine) (n : Nat) : Along R e (e.dropServer n) :=
  hR.along_trans (hR.modifyServer (hR.letGo _)) (hR.collect _ n)

theorem settleStop (e : Engine) (n deadline : Nat) : Along R e (e.settleStop n deadline) := by
  simp only [Engine.settleStop]
  split
  · exact hR.upTo (hR.along_shutDown e _) rfl
  · split
    · exact hR.upTo (hR.along_shutDown e _) rfl
    · exact hR.of_servers rfl

theorem runStop (e : Engine) (n : Nat) : Along R e (e.runStop n) := by
  simp only [Engine.runStop]
  split
  · split
    · exact hR.of_servers rfl
    · exact hR.along_trans (hR.along_askToStop e _) (hR.settleStop _ n _)
  · exact hR.settleStop e n _
  · exact hR.along_refl e

theorem abandonStop (e : Engine) (n : Nat) : Along R e (e.abandonStop n) := by
  unfold Engine.abandonStop
  split
  · exact hR.since (hR.collect _ _) rfl
  · exact hR.along_refl e

/-!
# Loading

A server that is built does not concern the others, and comes without handles.
-/

theorem perform (factory : Option BackendFactory) (polled : Option Nat) (e : Engine)
    (action : LoadAction) : Along R e (Engine.perform factory polled e action) := by
  cases action with
  | report event => exact hR.of_servers rfl
  | create config version =>
      cases factory with
      | none => exact hR.along_refl e
      | some factory =>
          cases polled with
          | none => exact hR.of_servers rfl
          | some n =>
              simp only [Engine.perform, Option.map_some]
              split
              · exact hR.since (hR.upTo (hR.runStop _ _) rfl) rfl
              · exact hR.of_servers rfl

theorem reconcile (e : Engine) (factory : Option BackendFactory) (polled : Option Nat)
    (options : ServerOptions) (table : ModelTable) (models : List RepositoryModel) :
    Along R e (e.reconcile factory polled options table models).2.2 :=
  hR.upTo (hR.foldl (hR.perform factory polled) _ e) rfl

theorem build_cases (e : Engine) (k : Nat) (options : ServerOptions) (allocator : Option Nat)
    (scan : Except Failure (List RepositoryModel)) (factory : Option BackendFactory)
    (isInside : Bool) :
    R (e.server k) ((e.build options allocator scan factory isInside).2.server k) ∨
    k = e.servers.length ∧
      ((e.build options allocator scan factory isInside).2.server k).registry = .empty := by
  simp only [Engine.build]
  split
  · exact .inl (hR.along_refl e k)
  · split
    · exact .inl (hR.along_refl e k)
    · cases scan with
      | error failure => exact .inl (hR.along_refl e k)
      | ok models =>
          have hloaded := hR.reconcile e factory none options .empty models k
          have hlength := (manages_reconcile e factory none options .empty models).length
          have hadded : forall (e' : Engine) (a : Nat) (table : ModelTable),
              e'.servers = (e.reconcile factory none options .empty models).2.2.servers ->
                R (e.server k) ((e'.addServer options a table).server k) ∨
                k = e.servers.length ∧
                  ((e'.addServer options a table).server k).registry = .empty := by
            intro e' a table hservers
            rw [server_addServer, hservers, hlength]
            split
            · rename_i hnew
              exact .inr ⟨hnew, rfl⟩
            · rw [server_of_servers hservers]
              exact .inl hloaded
          simp only
          split
          · exact .inl hloaded
          · cases allocator with
            | some n => exact hadded _ n _ rfl
            | none => exact hadded _ _ _ rfl

theorem build {e : Engine} {k : Nat} (h : k ≠ e.servers.length) (options : ServerOptions)
    (allocator : Option Nat) (scan : Except Failure (List RepositoryModel))
    (factory : Option BackendFactory) (isInside : Bool) :
    R (e.server k) ((e.build options allocator scan factory isInside).2.server k) :=
  (hR.build_cases e k options allocator scan factory isInside).resolve_right fun hnew => h hnew.1

theorem poll {k n : Nat}
    (htable : k = n -> forall (s : Server) (table : ModelTable), R s { s with table := table })
    (e : Engine) (scan : Except Failure (List RepositoryModel))
    (factory : Option BackendFactory) : R (e.server k) ((e.poll n scan factory).2.server k) := by
  simp only [Engine.poll]
  split
  · exact hR.along_refl e k
  · cases scan with
    | error failure => exact hR.along_refl e k
    | ok models =>
        have hloaded :=
          hR.reconcile e factory (some n) (e.server n).options (e.server n).table models k
        have hset : forall (e' : Engine) (table : ModelTable), R (e.server k) (e'.server k) ->
            R (e.server k) ((e'.modifyServer n fun s => { s with table := table }).server k) := by
          intro e' table hbefore
          rw [server_modifyServer]
          split
          · rename_i hk
            rw [← hk.1]
            exact hR.trans hbefore (htable hk.1 _ table)
          · exact hbefore
        simp only
        split
        · exact hloaded
        · split <;> exact hset _ _ hloaded

/-!
# Operations

What is neither about models nor about handles keeps the relation.
-/

theorem runAt (e : Engine) (position : Nat) : Along R e (e.runAt position) := by
  have hdequeued : (e.dequeue position).servers = e.servers := by
    rcases dequeue_eq e position with ⟨woken, started, hdequeue⟩
    rw [hdequeue]
  unfold Engine.runAt
  split
  · exact hR.along_refl e
  · rename_i job _
    cases job with
    | request n => exact hR.since (hR.runRequest _ n) hdequeued
    | stop n => exact hR.since (hR.runStop _ n) hdequeued

theorem close (e : Engine) : Along R e e.close := by
  have hcancelled : Along R e { e with isRunning := false }.cancelAll :=
    hR.since (hR.foldl hR.cancel _ _) rfl
  exact hR.upTo (hR.along_trans hcancelled (hR.foldl hR.abandonStop _ _)) rfl

theorem operate (e : Engine) {op : Operation} (hload : op.isLoad = false)
    (hregistration : op.isRegistration = false) : Along R e (e.operate op) := by
  cases op with
  | build | poll => cases hload
  | register | unregister | unregisterAll => cases hregistration
  | submit server provider callback => exact hR.submit e server callback provider
  | runAt position => exact hR.runAt e position
  | cancel n => exact hR.cancel e n
  | callStop server => exact hR.since (hR.runStop _ _) rfl
  | abandonStop call => exact hR.abandonStop e call
  | dropServer server => exact hR.dropServer e server
  | openGate permits =>
      have hthrough := hR.foldl fun e n => hR.of_servers (servers_letThrough e n)
      exact hR.since (hthrough _ _) rfl
  | closeGate =>
      have hthrough := hR.foldl fun e n => hR.of_servers (servers_letThrough e n)
      exact hR.since (hthrough _ _) rfl
  | dropResponse n =>
      refine hR.of_servers ?_
      simp only [Engine.operate, dropResponse]
      split <;> rfl
  | allocate n domain region size =>
      refine hR.of_servers ?_
      simp only [Engine.operate, allocateFrom]
      split <;> rfl
  | close => exact hR.close e
  | beginStop | wakeStop | tick | ignore | setDirectory | report | addAllocator | free =>
      exact hR.of_servers rfl

end Server.Endures

end InferenceEngine
