import InferenceEngine.Proofs.Execution.Starts
import InferenceEngine.Proofs.Requests.Slots
import InferenceEngine.Proofs.Runs.Attends

/-!
# Who gets a slot first

A request comes to a slot in steps: it asks, it may have to wait, and it is given the slot.  Of two
requests of a server the one that has asked first is given a slot first, unless it is given up.
-/

namespace InferenceEngine

namespace Phase

/-- How far a request has come on its way to a slot and past it. -/
def rank : Phase -> Nat
  | accepted => 0
  | waiting => 1
  | granted | inBackend .. | atGate .. | letThrough .. => 2
  | answered _ | closed => 3

variable {p p' : Phase}

theorem rank_eq_zero_iff : p.rank = 0 ↔ p = .accepted := by
  cases p <;> simp [rank]

theorem ne_accepted_iff : p ≠ .accepted ↔ 1 ≤ p.rank := by
  cases p <;> simp [rank]

theorem rank_eq_one_iff : p.rank = 1 ↔ p = .waiting := by
  cases p <;> simp [rank]

theorem rank_eq_two_iff : p.rank = 2 ↔ p.holdsSlot = true := by
  cases p <;> simp [rank, holdsSlot]

theorem rank_eq_three_iff : p.rank = 3 ↔ p.isOpen = false := by
  cases p <;> simp [rank, isOpen]

theorem rank_le_three (p : Phase) : p.rank ≤ 3 := by
  cases p <;> simp [rank]

theorem Stays.rank_le (h : p.Stays p') : p.rank ≤ p'.rank := by
  rcases h with rfl | ⟨rfl, rfl⟩
  · exact Nat.le_refl _
  · exact Nat.le_succ 1

theorem Turns.rank_eq (h : p.Turns p') : p'.rank = p.rank := by
  cases h <;> rfl

end Phase

namespace Engine

variable {also : Deed -> Prop} {e e' : Engine} {m n : Nat}

/-!
# There is no way back
-/

theorem rank_le_setPhase {p : Phase} (h : (e.submission n).phase.rank ≤ p.rank) (m : Nat) :
    (e.submission m).phase.rank ≤ ((e.setPhase n p).submission m).phase.rank := by
  rw [submission_setPhase]
  split
  · rename_i hm
    rw [hm.1]
    exact h
  · exact Nat.le_refl _

theorem rank_received (e : Engine) (n : Nat) (response : Response) :
    (e.received n response).rank = 3 :=
  Phase.rank_eq_three_iff.2 (isOpen_received e n response)

theorem rank_le_callBack (e : Engine) (n : Nat) (taken? : Option Nat) (response : Response)
    (m : Nat) : (e.submission m).phase.rank ≤
      ((e.callBack n taken? response).submission m).phase.rank := by
  rw [phase_callBack]
  split
  · rw [rank_received]
    exact Phase.rank_le_three _
  · exact Nat.le_refl _

theorem rank_le_respond (h : e.Lined) (n : Nat)
    (result : Except Failure (List (String × OutputStorage))) (m : Nat) :
    (e.submission m).phase.rank ≤ ((e.respond n result).submission m).phase.rank := by
  have hreleased := (stays_releaseSlot (lined_noteResult h n result) (e.submission n).server
    m).rank_le
  rw [phase_noteResult] at hreleased
  exact Nat.le_trans hreleased (rank_le_callBack _ n _ _ m)

theorem rank_le_giveUp (h : e.Lined) (n m : Nat) :
    (e.submission m).phase.rank ≤ ((e.giveUp n).submission m).phase.rank := by
  have hwithdrawn : (e.submission m).phase.rank ≤ ((e.withdraw n).submission m).phase.rank := by
    simp only [withdraw]
    split
    · exact (stays_releaseSlot h _ m).rank_le
    · exact Nat.le_refl _
  have hcalled := rank_le_callBack
    ((e.withdraw n).report [.requestDropped (e.submission n).request.id]) n none
    (e.responseTo n 0 (.error .cancelled)) m
  exact Nat.le_trans hwithdrawn hcalled

theorem Move.rank_le {deed : Deed} (h : Move deed e e') (hlined : e.Lined)
    (hm : m < e.submissions.length) :
    (e.submission m).phase.rank ≤ (e'.submission m).phase.rank := by
  cases h with
  | enroll _ server callback provider request hstate hprepare =>
      have hne : m ≠ (e.countIn server).submissions.length := Nat.ne_of_lt hm
      rw [submission_enroll, if_neg hne]
      exact Nat.le_refl _
  | awaitSlot _ n hn =>
      refine rank_le_setPhase (e := e.modifyServer _ _) ?_ m
      show (e.submission n).phase.rank ≤ _
      rw [hn]
      exact Nat.zero_le _
  | takeSlot _ e' n hn htake =>
      rcases takeSlot?_eq_some htake with ⟨free, rfl⟩
      refine rank_le_setPhase (e := e.modifyServer _ _) ?_ m
      show (e.submission n).phase.rank ≤ _
      rw [hn]
      exact Nat.zero_le _
  | gatherFails _ n failure hn hgather => exact rank_le_respond hlined n _ m
  | allocateFails _ n failure a events hn hallocate =>
      have hsame : Lined ((e.setMemory (e.submission n).server ⟨a, e.directory⟩).report events) :=
        hlined.of_parts rfl rfl
      exact rank_le_respond hsame n _ m
  | unwind _ n slots a events hn hallocate =>
      have hsame : (e.forfeit n slots a events).Lined := hlined.of_parts rfl rfl
      exact rank_le_giveUp hsame n m
  | enter _ n inputs slots a events hn hgather hallocate =>
      have hphase : (e.submission n).phase.rank = 2 := by
        rw [hn]
        rfl
      rw [enterBackend, submission_setPhase]
      split
      · rename_i hself
        have hsame : (e.submission m).phase.rank = 2 := by rw [hself.1, hphase]
        exact Nat.le_of_eq hsame
      · exact Nat.le_refl _
  | turn _ n p hn => exact rank_le_setPhase (Nat.le_of_eq hn.rank_eq.symm) m
  | leave _ n held next result slots hn hnext =>
      have hsame : (e.takeSlots n result slots).Lined := hlined.of_parts rfl rfl
      exact rank_le_respond hsame n _ m
  | cancel _ n hn => exact rank_le_giveUp hlined n m
  | comeBack _ n hn =>
      exact Nat.le_of_eq (by rw [submission_of_submissions (submissions_comeBack e n)])
  | dropResponse _ n response hn =>
      exact rank_le_setPhase (e := e.releaseResponse response) (Phase.rank_le_three _) m
  | ignore _ n => exact Nat.le_of_eq (by rw [phase_ignore])
  | _ => exact Nat.le_refl _

theorem Moves.rank_le (h : Moves also e e') (hreachable : e.Reachable)
    (hm : m < e.submissions.length) :
    (e.submission m).phase.rank ≤ (e'.submission m).phase.rank := by
  have hboth : m < e'.submissions.length ∧
      (e.submission m).phase.rank ≤ (e'.submission m).phase.rank := by
    refine Moves.induct_of_reachable (P := fun middle => m < middle.submissions.length ∧
      (e.submission m).phase.rank ≤ (middle.submission m).phase.rank) ?_ h hreachable
      ⟨hm, Nat.le_refl _⟩
    rintro deed middle e' _ hmiddle hmove ⟨hlt, hle⟩
    exact ⟨(hmove.keepsRequests m hlt).1, Nat.le_trans hle (hmove.rank_le hmiddle.lined hlt)⟩
  exact hboth.2

/-!
# Asking and being given

Who has been given up without an execution does not count as one who has asked.
-/

/-- Whether the callback of a request has been called after an execution. -/
def IsExecuted (e : Engine) (n : Nat) : Prop :=
  exists c : Completion, c ∈ e.completions ∧ c.submission = n ∧ c.isExecuted = true

/-- Whether a request has been given a slot: it holds one, or it has been executed. -/
def WasGranted (e : Engine) (n : Nat) : Prop :=
  (e.submission n).phase.holdsSlot = true ∨ e.IsExecuted n

/-- Whether a request has asked for a slot: it waits for one, or it has been given one. -/
def HasAsked (e : Engine) (n : Nat) : Prop :=
  (e.submission n).phase = .waiting ∨ e.WasGranted n

theorem not_asked_of_closed (h : (e.submission n).phase.isOpen = false) (hn : ¬ e.IsExecuted n) :
    ¬ e.HasAsked n := by
  rintro (hwaits | hholds | hexecuted)
  · rw [hwaits] at h
    cases h
  · rw [Phase.isOpen_of_holdsSlot hholds] at h
    cases h
  · exact hn hexecuted

theorem not_asked_giveUp (h : e.Lined) (hopen : (e.submission n).phase.isOpen = true)
    (hn : ¬ e.IsExecuted n) : ¬ (e.giveUp n).HasAsked n := by
  apply not_asked_of_closed
  · rw [(callsBack_giveUp h hopen).isOpen, if_pos rfl]
  · rintro ⟨c, hc, hself, hexecuted⟩
    rcases completions_giveUp e n with ⟨live, ready, hcompletions⟩
    rw [hcompletions] at hc
    rcases List.mem_append.1 hc with hold | hnew
    · exact hn ⟨c, hold, hself, hexecuted⟩
    · rw [List.mem_singleton.1 hnew] at hexecuted
      cases hexecuted

/-- Whether one request is to be given a slot before another one. -/
structure Precedes (m n : Nat) (e : Engine) : Prop where
  asked : (e.submission m).phase = .accepted -> ¬ e.HasAsked n
  granted : (e.submission m).phase = .waiting -> ¬ e.WasGranted n
  queued : (e.submission m).phase = .waiting -> (e.submission n).phase = .waiting ->
    [m, n].Sublist (e.server (e.submission m).server).waiting

/-- Whether two requests ask for slots of the same server. -/
structure Rivals (m n : Nat) (e : Engine) : Prop where
  first : m < e.submissions.length
  second : n < e.submissions.length
  distinct : m ≠ n
  server : (e.submission m).server = (e.submission n).server

theorem Rivals.keeps (h : Rivals m n e) (k : e.KeepsRequests e') : Rivals m n e' where
  first := (k m h.first).1
  second := (k n h.second).1
  distinct := h.distinct
  server := by
    rw [(k m h.first).2, (k n h.second).2]
    exact h.server

theorem Precedes.of_not_asked (h : ¬ e.HasAsked n) : Precedes m n e where
  asked _ := h
  granted _ hgranted := h (.inr hgranted)
  queued _ hwaits := absurd (.inl hwaits) h

theorem Precedes.of_rank (h : 2 ≤ (e.submission m).phase.rank) : Precedes m n e where
  asked hm := by
    rw [hm] at h
    exact absurd h (by decide)
  granted hm := by
    rw [hm] at h
    exact absurd h (by decide)
  queued hm := by
    rw [hm] at h
    exact absurd h (by decide)

/-- A request that has been given a slot comes after one that has been given one too, or has been
given up. -/
theorem Precedes.rank_of_granted (h : Precedes m n e) (hn : e.WasGranted n) :
    2 ≤ (e.submission m).phase.rank := by
  have haccepted : (e.submission m).phase.rank ≠ 0 := fun hzero =>
    h.asked (Phase.rank_eq_zero_iff.1 hzero) (.inr hn)
  have hwaiting : (e.submission m).phase.rank ≠ 1 := fun hone =>
    h.granted (Phase.rank_eq_one_iff.1 hone) hn
  omega

theorem Precedes.of_sublist (h : Precedes m n e)
    (hm : (e'.submission m).phase = (e.submission m).phase)
    (hn : (e'.submission n).phase = (e.submission n).phase)
    (hwaiting : (e.server (e.submission m).server).waiting.Sublist
      (e'.server (e'.submission m).server).waiting)
    (hexecuted : e'.IsExecuted n -> e.IsExecuted n) : Precedes m n e' := by
  have hgranted : e'.WasGranted n -> e.WasGranted n := by
    unfold WasGranted
    rw [hn]
    exact Or.imp_right hexecuted
  have hasked : e'.HasAsked n -> e.HasAsked n := by
    unfold HasAsked
    rw [hn]
    exact Or.imp_right hgranted
  constructor
  · intro haccepted
    rw [hm] at haccepted
    exact fun hboth => h.asked haccepted (hasked hboth)
  · intro hwaits
    rw [hm] at hwaits
    exact fun hboth => h.granted hwaits (hgranted hboth)
  · intro hwaits hbehind
    rw [hm] at hwaits
    rw [hn] at hbehind
    exact (h.queued hwaits hbehind).trans hwaiting

theorem Precedes.of_parts (h : Precedes m n e)
    (hm : (e'.submission m).phase = (e.submission m).phase)
    (hn : (e'.submission n).phase = (e.submission n).phase)
    (hwaiting : (e'.server (e'.submission m).server).waiting =
      (e.server (e.submission m).server).waiting)
    (hexecuted : e'.IsExecuted n -> e.IsExecuted n) : Precedes m n e' :=
  h.of_sublist hm hn (by rw [hwaiting]) hexecuted

/-!
# Slots that are given back

A slot that is given back does not go to the one behind.
-/

theorem isExecuted_releaseSlot (k : Nat) (h : (e.releaseSlot k).IsExecuted n) :
    e.IsExecuted n := by
  have hsame : (e.releaseSlot k).completions = e.completions := by
    unfold releaseSlot
    split <;> rfl
  unfold IsExecuted at h ⊢
  rw [hsame] at h
  exact h

theorem Lined.not_behind_head (h : e.Lined) {k : Nat}
    (hhead : (e.server k).waiting.head? = some n) (hmn : m ≠ n) :
    ¬ [m, n].Sublist (e.server k).waiting := by
  intro hsub
  have hnodup := (h k).1
  cases hwaiting : (e.server k).waiting with
  | nil =>
      rw [hwaiting] at hhead
      cases hhead
  | cons first rest =>
      rw [hwaiting] at hhead hsub hnodup
      cases hhead
      cases hsub with
      | cons _ hrest =>
          exact (List.nodup_cons.1 hnodup).1 (hrest.subset (by simp))
      | cons_cons => exact hmn rfl

theorem Precedes.releaseSlot (h : Precedes m n e) (hlined : e.Lined)
    (hown : (e.submission m).server = (e.submission n).server) (hmn : m ≠ n) (k : Nat) :
    Precedes m n (e.releaseSlot k) := by
  have hm := stays_releaseSlot hlined k m
  have hn := stays_releaseSlot hlined k n
  have hserver : ((e.releaseSlot k).submission m).server = (e.submission m).server := by
    rw [(spares_releaseSlot e k).submission m]
  -- Who still waits afterwards has not been the first one in the queue.
  have hwaits : forall j : Nat, ((e.releaseSlot k).submission j).phase = .waiting ->
      (e.submission j).phase = .waiting ∧ (e.server k).waiting.head? ≠ some j := by
    intro j hj
    have hlt : j < e.submissions.length := by
      rw [← (spares_releaseSlot e k).submissions]
      exact lt_of_phase (by rw [hj]; rfl)
    rw [phase_releaseSlot] at hj
    split at hj
    · cases hj
    · rename_i hnot
      exact ⟨hj, fun hhead => hnot ⟨hhead, hlt⟩⟩
  have hsame : (e.submission n).phase ≠ .waiting ->
      ((e.releaseSlot k).submission n).phase = (e.submission n).phase := by
    intro hnot
    rcases hn with hsame | ⟨hwaiting, _⟩
    · exact hsame
    · exact absurd hwaiting hnot
  constructor
  · intro haccepted
    have hnot := h.asked (hm.eq_accepted_iff.1 haccepted)
    have hphase := hsame fun hwaiting => hnot (.inl hwaiting)
    rintro (hwaiting | hholds | hexecuted)
    · rw [hphase] at hwaiting
      exact hnot (.inl hwaiting)
    · rw [hphase] at hholds
      exact hnot (.inr (.inl hholds))
    · exact hnot (.inr (.inr (isExecuted_releaseSlot k hexecuted)))
  · intro hwaiting
    rcases hwaits m hwaiting with ⟨hbefore, _⟩
    have hnot := h.granted hbefore
    rintro (hholds | hexecuted)
    · rcases hn with hphase | ⟨hbehind, _⟩
      · rw [hphase] at hholds
        exact hnot (.inl hholds)
      · rw [phase_releaseSlot] at hholds
        split at hholds
        · rename_i hhead
          have hk := ((hlined k).2 n (List.mem_of_mem_head? hhead.1)).1
          have hqueued := h.queued hbefore hbehind
          rw [hown, hk] at hqueued
          exact hlined.not_behind_head hhead.1 hmn hqueued
        · exact hnot (.inl hholds)
    · exact hnot (.inr (isExecuted_releaseSlot k hexecuted))
  · intro hwaiting hbehind
    rcases hwaits m hwaiting with ⟨hbefore, hfirst⟩
    have hqueued := h.queued hbefore (hwaits n hbehind).1
    rw [hserver, waiting_releaseSlot]
    split
    · rename_i hk
      rw [hk] at hqueued
      cases hqueue : (e.server k).waiting with
      | nil =>
          rw [hqueue] at hqueued
          cases hqueued
      | cons first rest =>
          rw [hqueue] at hqueued hfirst
          cases hqueued with
          | cons _ hrest => exact hrest
          | cons_cons => exact absurd rfl hfirst
    · exact hqueued

theorem Precedes.callBack (h : Precedes m n e) {x : Nat} (hm : m ≠ x) (hn : n ≠ x)
    (taken? : Option Nat) (response : Response) :
    Precedes m n (e.callBack x taken? response) := by
  apply h.of_parts
  · rw [phase_callBack, if_neg fun hboth => hm hboth.1]
  · rw [phase_callBack, if_neg fun hboth => hn hboth.1]
  · rw [server_callBack, (spares_callBack e x taken? response).submission m]
  · rintro ⟨c, hc, hown, hexecuted⟩
    rw [completions_callBack] at hc
    rcases List.mem_append.1 hc with hold | hnew
    · exact ⟨c, hold, hown, hexecuted⟩
    · rw [List.mem_singleton.1 hnew] at hown
      exact absurd hown.symm hn

theorem Precedes.respond (h : Precedes m n e) (hlined : e.Lined)
    (hown : (e.submission m).server = (e.submission n).server) (hmn : m ≠ n) {x : Nat}
    (hm : m ≠ x) (hn : n ≠ x) (result : Except Failure (List (String × OutputStorage))) :
    Precedes m n (e.respond x result) := by
  have hnoted : Precedes m n (e.noteResult x result) := by
    cases result <;> exact h.of_parts rfl rfl rfl id
  have hsame : ((e.noteResult x result).submission m).server =
      ((e.noteResult x result).submission n).server := by
    cases result <;> exact hown
  exact (hnoted.releaseSlot (lined_noteResult hlined x result) hsame hmn _).callBack hm hn _ _

theorem Precedes.giveUp (h : Precedes m n e) (hlined : e.Lined)
    (hown : (e.submission m).server = (e.submission n).server) (hmn : m ≠ n) {x : Nat}
    (hm : m ≠ x) (hn : n ≠ x) : Precedes m n (e.giveUp x) := by
  have hwithdrawn : Precedes m n (e.withdraw x) := by
    simp only [withdraw]
    split
    · exact h.releaseSlot hlined hown hmn _
    · refine ⟨h.asked, h.granted, ?_⟩
      intro hwaits hbehind
      have hqueued := h.queued hwaits hbehind
      show [m, n].Sublist ((e.modifyServer _ _).server (e.submission m).server).waiting
      rw [server_modifyServer]
      split
      · rename_i hk
        rw [hk.1] at hqueued
        have hfiltered := hqueued.filter (· != x)
        simpa [hm, hn] using hfiltered
      · exact hqueued
  have hreported : Precedes m n
      ((e.withdraw x).report [.requestDropped (e.submission x).request.id]) :=
    hwithdrawn.of_parts rfl rfl rfl id
  exact hreported.callBack hm hn none _

/-!
# Slots that are asked for
-/

/-- What a move does to other requests than these two does not change which one comes first. -/
theorem Precedes.setPhase (h : Precedes m n e) {x : Nat} (hm : m ≠ x) (hn : n ≠ x) (p : Phase) :
    Precedes m n (e.setPhase x p) := by
  have hother : forall j : Nat, j ≠ x -> (e.setPhase x p).submission j = e.submission j := by
    intro j hj
    rw [submission_setPhase, if_neg fun hboth => hj hboth.1]
  apply h.of_parts
  · rw [hother m hm]
  · rw [hother n hn]
  · rw [hother m hm]
    rfl
  · exact id

theorem Precedes.modifyServer (h : Precedes m n e) {k : Nat} {f : Server -> Server}
    (hf : (f (e.server k)).waiting = (e.server k).waiting) : Precedes m n (e.modifyServer k f) := by
  refine h.of_parts rfl rfl ?_ id
  show ((e.modifyServer k f).server (e.submission m).server).waiting = _
  rw [server_modifyServer]
  split
  · rename_i hk
    rw [hk.1]
    exact hf
  · rfl

theorem Precedes.awaitSlot (h : Precedes m n e) {x : Nat} (hx : (e.submission x).phase = .accepted)
    (hn : n ≠ x) : Precedes m n (e.awaitSlot x) := by
  have hbehind := submission_awaitSlot_of_ne e hn
  by_cases hm : m = x
  · apply Precedes.of_not_asked
    have hnot := h.asked (by rw [hm]; exact hx)
    unfold HasAsked WasGranted at hnot ⊢
    rw [hbehind]
    exact hnot
  · have hfirst := submission_awaitSlot_of_ne e hm
    apply h.of_sublist
    · rw [hfirst]
    · rw [hbehind]
    · rw [hfirst, waiting_awaitSlot]
      split
      · exact List.sublist_append_left _ _
      · exact .refl _
    · exact id

theorem Precedes.takeSlot (h : Precedes m n e) {x : Nat} (hm : m < e.submissions.length)
    (hn : n ≠ x) (free : Nat) : Precedes m n ((e.modifyServer (e.submission x).server fun s =>
      { s with freeSlots := free }).setPhase x .granted) := by
  by_cases hx : m = x
  · apply Precedes.of_rank
    rw [← hx, phase_setPhase_self (e := e.modifyServer _ _) hm]
    exact Nat.le_refl 2
  · have htaken : Precedes m n (e.modifyServer (e.submission x).server fun s =>
        { s with freeSlots := free }) := h.modifyServer rfl
    exact htaken.setPhase hx hn .granted

/-!
# Moves
-/

/-- A request that was there and has asked for a slot, or has been given up, does not overtake one
that has come before it. -/
theorem Move.precedes {deed : Deed} (h : Move deed e e') (hlined : e.Lined) (htally : e.Tally)
    (hrivals : Rivals m n e) (hbegun : (e.submission n).phase ≠ .accepted) (k : Precedes m n e) :
    Precedes m n e' := by
  rcases hrivals with ⟨hmlt, hnlt, hmn, hown⟩
  have hrank := h.rank_le hlined hmlt
  by_cases hpast : 2 ≤ (e.submission m).phase.rank
  · exact .of_rank (Nat.le_trans hpast hrank)
  -- From here on the first one is on its way, and the other one has not been given a slot.
  have hfree : ¬ e.WasGranted n := fun hgranted => hpast (k.rank_of_granted hgranted)
  have hmholds : forall x : Nat, (e.submission x).phase.holdsSlot = true -> m ≠ x := by
    intro x hx hsame
    rw [← hsame] at hx
    exact hpast (Nat.le_of_eq (Phase.rank_eq_two_iff.2 hx).symm)
  have hnholds : forall x : Nat, (e.submission x).phase.holdsSlot = true -> n ≠ x := by
    intro x hx hsame
    rw [← hsame] at hx
    exact hfree (.inl hx)
  cases h with
  | schedule | close | directory | stops | create | addStats | addAllocator | useAllocator =>
      exact k.of_parts rfl rfl rfl id
  | addServer _ options allocator table hallocator htable =>
      refine k.of_parts rfl rfl ?_ id
      show ((e.addServer options allocator table).server (e.submission m).server).waiting = _
      rw [server_addServer, if_neg (Nat.ne_of_lt (htally.server m hmlt))]
  | server _ j s hs => exact k.modifyServer (f := fun _ => s) hs.waiting
  | enroll _ server callback provider request hstate hprepare =>
      have hold : forall j : Nat, j < e.submissions.length ->
          ((e.countIn server).enroll server request callback).submission j = e.submission j :=
        fun j hj => (submission_enroll _ server callback request j).trans (if_neg (Nat.ne_of_lt hj))
      apply k.of_parts
      · rw [hold m hmlt]
      · rw [hold n hnlt]
      · rw [hold m hmlt]
        show ((e.countIn server).server (e.submission m).server).waiting = _
        rw [server_countIn]
        split
        · rename_i hj
          rw [hj.1]
        · rfl
      · exact id
  | awaitSlot _ x hx =>
      have hn : n ≠ x := by
        intro hsame
        rw [hsame] at hbegun
        exact hbegun hx
      exact k.awaitSlot hx hn
  | takeSlot _ e' x hx htake =>
      rcases takeSlot?_eq_some htake with ⟨free, rfl⟩
      have hn : n ≠ x := by
        intro hsame
        rw [hsame] at hbegun
        exact hbegun hx
      exact k.takeSlot hmlt hn free
  | gatherFails _ x failure hx hgather =>
      have hholds : (e.submission x).phase.holdsSlot = true := by rw [hx]; rfl
      exact k.respond hlined hown hmn (hmholds x hholds) (hnholds x hholds) _
  | allocateFails _ x failure a events hx hallocate =>
      have hholds : (e.submission x).phase.holdsSlot = true := by rw [hx]; rfl
      have hsame : Precedes m n ((e.setMemory (e.submission x).server ⟨a, e.directory⟩).report
          events) := k.of_parts rfl rfl rfl id
      exact hsame.respond (hlined.of_parts rfl rfl) hown hmn (hmholds x hholds) (hnholds x hholds) _
  | unwind _ x slots a events hx hallocate =>
      have hholds : (e.submission x).phase.holdsSlot = true := by rw [hx]; rfl
      have hsame : Precedes m n (e.forfeit x slots a events) := k.of_parts rfl rfl rfl id
      exact hsame.giveUp (hlined.of_parts rfl rfl) hown hmn (hmholds x hholds) (hnholds x hholds)
  | enter _ x inputs slots a events hx hgather hallocate =>
      have hholds : (e.submission x).phase.holdsSlot = true := by rw [hx]; rfl
      have hrecorded : Precedes m n (((e.setMemory (e.submission x).server
          ⟨a, e.directory⟩).report events).record (.execute x
            ⟨(e.submission x).request.model.config, (e.submission x).request.model.version,
              (e.submission x).request.batchSize, inputs, slots⟩)) := k.of_parts rfl rfl rfl id
      exact hrecorded.setPhase (hmholds x hholds) (hnholds x hholds) _
  | turn _ x p hx =>
      have hholds : (e.submission x).phase.holdsSlot = true := by
        generalize (e.submission x).phase = old at hx
        cases hx <;> rfl
      exact k.setPhase (hmholds x hholds) (hnholds x hholds) p
  | leave _ x held next result slots hx hnext =>
      have hholds : (e.submission x).phase.holdsSlot = true := by rw [hx]; rfl
      have hsame : Precedes m n (e.takeSlots x result slots) := k.of_parts rfl rfl rfl id
      exact hsame.respond (hlined.of_parts rfl rfl) hown hmn (hmholds x hholds) (hnholds x hholds) _
  | cancel _ x hx =>
      have hclosed := (callsBack_giveUp hlined hx).isOpen x
      rw [if_pos rfl] at hclosed
      by_cases hm : m = x
      · apply Precedes.of_rank
        rw [hm, Phase.rank_eq_three_iff.2 hclosed]
        exact Nat.le_succ 2
      · by_cases hn : n = x
        · apply Precedes.of_not_asked
          rw [hn] at hfree ⊢
          exact not_asked_giveUp hlined hx fun hexecuted => hfree (.inr hexecuted)
        · exact k.giveUp hlined hown hmn hm hn
  | comeBack _ x hx =>
      have hsubmission := submission_of_submissions (submissions_comeBack e x)
      apply k.of_parts
      · rw [hsubmission]
      · rw [hsubmission]
      · rw [hsubmission, server_comeBack]
        split
        · rfl
        · rfl
      · unfold IsExecuted
        rw [completions_comeBack]
        exact id
  | dropResponse _ x response hx =>
      have hreleased : Precedes m n (e.releaseResponse response) := k.of_parts rfl rfl rfl id
      have hm : m ≠ x := by
        intro hsame
        rw [hsame, hx] at hpast
        exact hpast (Nat.le_succ 2)
      by_cases hn : n = x
      · apply Precedes.of_not_asked
        rw [hn] at hfree ⊢
        apply not_asked_of_closed
        · rw [phase_setPhase_self (e := e.releaseResponse response) (lt_of_answered hx)]
          rfl
        · exact fun hexecuted => hfree (.inr hexecuted)
      · exact hreleased.setPhase hm hn .closed
  | ignore _ x =>
      have hserver : ((e.ignore x).submission m).server = (e.submission m).server := by
        rw [(spares_ignore e x).submission m]
      refine k.of_parts (phase_ignore e x m) (phase_ignore e x n) ?_ id
      rw [hserver]
      rfl

theorem Moves.precedes (h : Moves also e e') (hreachable : e.Reachable) (hrivals : Rivals m n e)
    (hbegun : (e.submission n).phase ≠ .accepted) (k : Precedes m n e) : Precedes m n e' := by
  have hall : Rivals m n e' ∧ 1 ≤ (e'.submission n).phase.rank ∧ Precedes m n e' := by
    refine Moves.induct_of_reachable (P := fun middle => Rivals m n middle ∧
      1 ≤ (middle.submission n).phase.rank ∧ Precedes m n middle) ?_ h hreachable
      ⟨hrivals, Phase.ne_accepted_iff.1 hbegun, k⟩
    rintro deed middle e' _ hmiddle hmove ⟨hrivals, hbegun, hprecedes⟩
    refine ⟨hrivals.keeps hmove.keepsRequests, ?_, ?_⟩
    · exact Nat.le_trans hbegun (hmove.rank_le hmiddle.lined hrivals.second)
    · exact hmove.precedes hmiddle.lined hmiddle.tally hrivals (Phase.ne_accepted_iff.2 hbegun)
        hprecedes
  exact hall.2.2

end Engine

end InferenceEngine
