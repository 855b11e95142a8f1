import InferenceEngine.Proofs.Requests.Acceptance
import InferenceEngine.Proofs.Requests.Lineup

/-!
# Who is given the slots

The requests of a server are given its slots in the order in which they ask, and where jobs are run
in the order of the queue, they ask in the order in which they were submitted.
-/

namespace InferenceEngine

namespace Engine

variable {e e' : Engine} {m n : Nat}

/-!
# The order of asking
-/

theorem Rivals.of_keeps (h : Rivals m n e') (k : e.KeepsRequests e')
    (hm : m < e.submissions.length) (hn : n < e.submissions.length) : Rivals m n e where
  first := hm
  second := hn
  distinct := h.distinct
  server := by
    have hserver := h.server
    rw [(k m hm).2, (k n hn).2] at hserver
    exact hserver

theorem moves_concat (ops : List Operation) (op : Operation) :
    Moves (fun _ => True) (reached ops) (reached (ops ++ [op])) := by
  rw [reached_concat]
  exact moves_operate (reachable_reached ops).sound op fun _ _ => trivial

theorem precedes_of_length (htally : e.Tally) (hn : e.submissions.length ≤ n) :
    Precedes m n e :=
  .of_not_asked fun hasked => Nat.not_lt_of_le hn (htally.of_asked hasked).1

theorem precedes_concat {ops : List Operation} (op : Operation)
    (hm : m < (reached ops).submissions.length)
    (k : Rivals m n (reached ops) -> Precedes m n (reached ops))
    (horder : forall position : Nat, op = .runAt position ->
      (reached ops).queue[position]? = some (.request n) ->
        ((reached ops).submission n).phase = .accepted ->
          ((reached ops).submission m).phase ≠ .accepted)
    (hrivals : Rivals m n (reached (ops ++ [op]))) : Precedes m n (reached (ops ++ [op])) := by
  have hreachable := reachable_reached ops
  have hkeeps := (moves_concat ops op).keepsRequests
  have hbefore : n < (reached ops).submissions.length -> Rivals m n (reached ops) :=
    hrivals.of_keeps hkeeps hm
  have hprecedes : Precedes m n (reached ops) := by
    by_cases hn : n < (reached ops).submissions.length
    · exact k (hbefore hn)
    · exact precedes_of_length hreachable.tally (Nat.le_of_not_lt hn)
  rw [reached_concat]
  exact hprecedes.operate hreachable (driven_reached ops) hbefore op horder

/-- A request that has asked before another one of its server is given a slot before it, in every
run. -/
theorem HasAskedBefore.after {ops : List Operation} (h : (reached ops).HasAskedBefore m n)
    (more : List Operation) :
    m < (reached (ops ++ more)).submissions.length ∧
      1 ≤ ((reached (ops ++ more)).submission m).phase.rank ∧
      (Rivals m n (reached (ops ++ more)) -> Precedes m n (reached (ops ++ more))) := by
  induction more using List.reverseRecOn with
  | nil =>
      have hreachable := reachable_reached ops
      rw [List.append_nil]
      refine ⟨lt_of_phase (by rw [h.1]; rfl), ?_, fun _ => ?_⟩
      · rw [h.1]
        exact Nat.le_refl 1
      · exact h.precedes hreachable.lined hreachable.tally
  | append_singleton more op ih =>
      rcases ih with ⟨hlt, hbegun, hprecedes⟩
      have hmoves := moves_concat (ops ++ more) op
      rw [← List.append_assoc]
      refine ⟨(hmoves.keepsRequests m hlt).1, ?_, ?_⟩
      · exact Nat.le_trans hbegun (hmoves.rank_le (reachable_reached _) hlt)
      · exact precedes_concat op hlt hprecedes fun _ _ _ _ => Phase.ne_accepted_iff.2 hbegun

/-!
# The order of submission
-/

/-- Whether the requests of each server ask for slots in the order in which they were submitted:
when the job of one is run for the first time, none that was submitted before has yet to ask. -/
def AskInOrder (ops : List Operation) : Prop :=
  forall (before : List Operation) (position m n : Nat),
    before ++ [.runAt position] <+: ops ->
      (reached before).queue[position]? = some (.request n) ->
        ((reached before).submission n).phase = .accepted -> m < n ->
          ((reached before).submission m).server = ((reached before).submission n).server ->
            ((reached before).submission m).phase ≠ .accepted

theorem AskInOrder.of_prefix {ops more : List Operation} (h : AskInOrder (ops ++ more)) :
    AskInOrder ops :=
  fun before position m n hbefore =>
    h before position m n (hbefore.trans (List.prefix_append ops more))

/-- Where requests ask in the order in which they were submitted, they are given slots in this
order. -/
theorem AskInOrder.precedes {ops : List Operation} (h : AskInOrder ops) (hmn : m < n)
    (hrivals : Rivals m n (reached ops)) : Precedes m n (reached ops) := by
  induction ops using List.reverseRecOn with
  | nil => cases hrivals.first
  | append_singleton ops op ih =>
      have hreachable := reachable_reached ops
      by_cases hn : n < (reached ops).submissions.length
      · refine precedes_concat op (Nat.lt_trans hmn hn) (ih h.of_prefix) ?_ hrivals
        rintro position rfl hjob haccepted
        have hserver := (hrivals.of_keeps (moves_concat ops _).keepsRequests (Nat.lt_trans hmn hn)
          hn).server
        exact h ops position m n (List.prefix_refl _) hjob haccepted hmn hserver
      · apply Precedes.of_not_asked
        intro hasked
        have hnot : ¬ (reached ops).HasAsked n := fun hbefore =>
          hn (hreachable.tally.of_asked hbefore).1
        rw [reached_concat] at hasked
        rcases asks_in_turn hreachable.lined hnot hasked with ⟨position, _, _, haccepted⟩
        exact hn (lt_of_phase (by rw [haccepted]; rfl))

/-- Whether it is always the first job of the queue that is run. -/
def RunsInOrder (ops : List Operation) : Prop :=
  forall position : Nat, .runAt position ∈ ops -> position = 0

theorem RunsInOrder.askInOrder {ops : List Operation} (h : RunsInOrder ops) : AskInOrder ops := by
  intro before position m n hbefore hjob hn hmn _ hm
  have hposition : position = 0 := h position (hbefore.subset (by simp))
  rw [hposition] at hjob
  cases hqueue : (reached before).queue with
  | nil =>
      rw [hqueue] at hjob
      cases hjob
  | cons first rest =>
      rw [hqueue] at hjob
      cases hjob
      have hready : ((reached before).submission m).phase.isReady = true := by
        rw [hm]
        rfl
      rcases (driven_reached before).ready m hready with hnone | hmem
      · cases hnone
      · have hle := (lineup_reached before).first hqueue hn (mem_newcomers.2 ⟨hmem, hm⟩)
        exact Nat.not_lt_of_le hle hmn

/-!
# Slots along a run
-/

/-- A request that holds no slot while nothing is left to run waits for one, and all are held. -/
theorem Driven.waits_of_settled (h : e.Driven none []) (hbalanced : e.Balanced)
    (hqueue : e.queue = []) (hopen : (e.submission m).phase.isOpen = true)
    (hfree : (e.submission m).phase.holdsSlot = false) :
    (e.submission m).phase = .waiting ∧ (e.server (e.submission m).server).freeSlots = 0 ∧
      e.holders (e.submission m).server =
        (e.server (e.submission m).server).options.executionSlots := by
  have hwaits : (e.submission m).phase = .waiting := by
    cases hphase : (e.submission m).phase with
    | waiting => rfl
    | accepted =>
        rcases h.ready m (by rw [hphase]; rfl) with hnone | hmem
        · cases hnone
        · rw [hqueue] at hmem
          cases hmem
    | answered response =>
        rw [hphase] at hopen
        cases hopen
    | closed =>
        rw [hphase] at hopen
        cases hopen
    | _ =>
        rw [hphase] at hfree
        cases hfree
  have hmem := h.waits m hwaits
  have hfull := h.full _ (List.ne_nil_of_mem hmem)
  have hcount := hbalanced _ (lt_of_waiting hmem)
  rw [hfull, Nat.zero_add] at hcount
  exact ⟨hwaits, hfull, hcount⟩

theorem executionSlots_of_run (ops more : List Operation) {k : Nat}
    (hk : k < (reached ops).servers.length) :
    1 ≤ ((reached ops).server k).options.executionSlots ∧
      ((reached (ops ++ more)).server k).options = ((reached ops).server k).options := by
  constructor
  · refine (tends_reached ops).holds (P := fun s => 1 ≤ s.options.executionSlots) ?_ ?_ hk
    · rintro s ⟨options, allocator, readings, table, hslots, rfl⟩
      exact Nat.one_le_iff_ne_zero.2 hslots
    · intro s s' hstep hs
      rw [hstep.options]
      exact hs
  · have hafter : reached (ops ++ more) = (reached ops).after more := by
      unfold reached
      rw [after_append]
    rw [hafter]
    exact ((tends_after (reached ops) more).server k hk).options

/-- Whoever comes first is on the way no more when the other one has been given a slot. -/
theorem Precedes.is_past (h : Precedes m n e) (hn : e.WasGranted n) :
    (e.submission m).phase ≠ .accepted ∧ (e.submission m).phase ≠ .waiting := by
  have hrank := h.rank_of_granted hn
  constructor
  · intro haccepted
    rw [haccepted] at hrank
    exact absurd hrank (by decide)
  · intro hwaits
    rw [hwaits] at hrank
    exact absurd hrank (by decide)

/-- After any run each slot of a server is free or held by one of its requests, in all states that
moves lead to.  When nothing is left to run, requests wait only if all slots are held.  Slots are
given in the order in which they are asked for, and where jobs are run in the order of the queue, in
the order of submission.  A request whose callback is called has given its slot back. -/
theorem slots_in_run (ops : List Operation) (k : Nat) (hk : k < (reached ops).servers.length) :
    (forall more : List Operation, 1 ≤ ((reached ops).server k).options.executionSlots ∧
      ((reached (ops ++ more)).server k).options = ((reached ops).server k).options) ∧
    (forall e : Engine, e.Reachable -> k < e.servers.length ->
      (e.server k).freeSlots + e.holders k = (e.server k).options.executionSlots ∧
        e.holders k ≤ (e.server k).options.executionSlots) ∧
    ((reached ops).queue = [] -> forall m : Nat, ((reached ops).submission m).server = k ->
      ((reached ops).submission m).phase.isOpen = true ->
        ((reached ops).submission m).phase.holdsSlot = false ->
          ((reached ops).submission m).phase = .waiting ∧ ((reached ops).server k).freeSlots = 0 ∧
            (reached ops).holders k = ((reached ops).server k).options.executionSlots) ∧
    (forall (more : List Operation) (m n : Nat), (reached ops).HasAskedBefore m n ->
      Rivals m n (reached (ops ++ more)) -> (reached (ops ++ more)).WasGranted n ->
        ((reached (ops ++ more)).submission m).phase ≠ .accepted ∧
          ((reached (ops ++ more)).submission m).phase ≠ .waiting) ∧
    (RunsInOrder ops -> AskInOrder ops) ∧
    (AskInOrder ops -> forall m n : Nat, m < n -> Rivals m n (reached ops) ->
      (reached ops).WasGranted n -> ((reached ops).submission m).phase ≠ .accepted ∧
        ((reached ops).submission m).phase ≠ .waiting) ∧
    (forall e : Engine, e.Reachable -> forall n : Nat, n ∈ e.calling -> e.holds k n = false) ∧
    forall (deed : Deed) (e e' : Engine), e.Reachable -> Move deed e e' ->
      e'.completions ≠ e.completions -> e.Calls e' := by
  refine ⟨?_, ?_, ?_, ?_, ?_, ?_, ?_, ?_⟩
  · exact fun more => executionSlots_of_run ops more hk
  · intro e he hlt
    have hcount := he.balanced k hlt
    exact ⟨hcount, by omega⟩
  · rintro hqueue m rfl hopen hfree
    exact (driven_reached ops).waits_of_settled (reachable_reached ops).balanced hqueue hopen hfree
  · intro more m n hbefore hrivals hgranted
    exact ((hbefore.after more).2.2 hrivals).is_past hgranted
  · exact fun horder => horder.askInOrder
  · intro horder m n hmn hrivals hgranted
    exact (horder.precedes hmn hrivals).is_past hgranted
  · exact fun e he n hn => he.holds_of_mem_calling hn k
  · exact fun deed e e' he hmove hcalled => he.calls hmove hcalled

def gatedBackend : Backend where
  run _ batch := .awaitGate batch.outputs fun _ => .finish (.ok ()) batch.outputs
  keeps _ _ := ⟨.refl _, fun _ => .refl _⟩

def gatedProvider : Provider :=
  { copyProvider.edited [.append "in" [1], .append "in" [2]] with
    model := ⟨0, copyModel, 1, gatedBackend⟩ }

/-- Three requests for one slot: the first one waits at the gate, the others for the slot. -/
def crowdedRun : List Operation :=
  [.build { ServerOptions.default with executionSlots := 1 } none (.ok [⟨copyModel, [1]⟩])
      (some fun _ _ => ⟨false, .ok gatedBackend⟩) true,
    .submit 0 gatedProvider 7, .submit 0 gatedProvider 8, .submit 0 gatedProvider 9,
    .runAt 0, .runAt 0, .runAt 0]

/-- The gate lets the first two requests through, and the third one has the slot. -/
def passingRun : List Operation := [.openGate 2, .runAt 0, .runAt 0]

/-- The one slot goes from each request to the next one, also when the first one is given up. -/
theorem slots_of_crowdedRun :
    0 < (reached crowdedRun).servers.length ∧ (reached crowdedRun).queue = [] ∧
    ((reached crowdedRun).submission 1).phase = .waiting ∧ (reached crowdedRun).holders 0 = 1 ∧
    (reached (crowdedRun ++ passingRun)).WasGranted 2 ∧
    ((reached (crowdedRun ++ passingRun)).submission 1).phase ≠ .waiting ∧
    ((reached (crowdedRun ++ passingRun)).submission 0).phase ≠ .waiting ∧
    0 ∈ ((reached crowdedRun).giveUp 0).calling ∧
    ((reached crowdedRun).giveUp 0).holds 0 0 = false ∧
    (((reached crowdedRun).giveUp 0).server 0).freeSlots +
      ((reached crowdedRun).giveUp 0).holders 0 = 1 ∧
    (reached crowdedRun).Calls ((reached crowdedRun).giveUp 0) := by
  have hlength : 0 < (reached crowdedRun).servers.length := by decide
  have hqueue : (reached crowdedRun).queue = [] := rfl
  have hasked : (reached crowdedRun).HasAskedBefore 1 2 := ⟨rfl, .inr (.refl [1, 2])⟩
  have hgranted : (reached (crowdedRun ++ passingRun)).WasGranted 2 := .inl rfl
  have hfirst : Rivals 0 2 (reached (crowdedRun ++ passingRun)) :=
    ⟨by decide, by decide, by decide, rfl⟩
  have hsecond : Rivals 1 2 (reached (crowdedRun ++ passingRun)) :=
    ⟨by decide, by decide, by decide, rfl⟩
  have horder : RunsInOrder (crowdedRun ++ passingRun) := by
    intro position hposition
    simpa [crowdedRun, passingRun] using hposition
  have hmove : Move (.cancel 0) (reached crowdedRun) ((reached crowdedRun).giveUp 0) :=
    .cancel _ 0 rfl
  have hreachable := reachable_reached crowdedRun
  have hgiven : ((reached crowdedRun).giveUp 0).Reachable :=
    hreachable.moves (@Moves.of_also (fun _ => True) _ _ _ trivial hmove)
  have hcalling : 0 ∈ ((reached crowdedRun).giveUp 0).calling := mem_calling_giveUp _ 0
  rcases slots_in_run crowdedRun 0 hlength with ⟨_, hcounts, hsettled, hask, _, _, hfree, hcalls⟩
  rcases slots_in_run (crowdedRun ++ passingRun) 0 (by decide) with
    ⟨_, _, _, _, hinorder, hsubmitted, _, _⟩
  rcases hsettled hqueue 1 rfl rfl rfl with ⟨hwaits, _, hholders⟩
  refine ⟨hlength, hqueue, hwaits, hholders, hgranted, ?_, ?_, hcalling, ?_, ?_, ?_⟩
  · exact (hask passingRun 1 2 hasked hsecond hgranted).2
  · exact (hsubmitted (hinorder horder) 0 2 (by decide) hfirst hgranted).2
  · exact hfree _ hgiven 0 hcalling
  · exact (hcounts _ hgiven (by decide)).1
  · apply hcalls _ _ _ hreachable hmove
    intro hsame
    exact absurd (congrArg List.length hsame) (by decide)

/-- Two requests for one slot, of which the one submitted later is run first. -/
def overtakingRun : List Operation :=
  [.build { ServerOptions.default with executionSlots := 1 } none (.ok [⟨copyModel, [1]⟩])
      (some fun _ _ => ⟨false, .ok gatedBackend⟩) true,
    .submit 0 gatedProvider 7, .submit 0 gatedProvider 8, .runAt 1, .runAt 0]

/-- Slots are not given in the order of submission in each run: the later request asks first, and
the earlier one waits for the slot that it holds. -/
theorem slots_out_of_submission_order :
    ¬ forall (ops : List Operation) (m n : Nat), m < n -> Rivals m n (reached ops) ->
      (reached ops).WasGranted n -> ((reached ops).submission m).phase ≠ .accepted ∧
        ((reached ops).submission m).phase ≠ .waiting := by
  intro horder
  have hrivals : Rivals 0 1 (reached overtakingRun) := ⟨by decide, by decide, by decide, rfl⟩
  have hgranted : (reached overtakingRun).WasGranted 1 := .inl rfl
  exact (horder overtakingRun 0 1 (by decide) hrivals hgranted).2 rfl

end Engine

end InferenceEngine
