import InferenceEngine.Proofs.Memory.Usage
import InferenceEngine.Proofs.Requests.Granting
import InferenceEngine.Proofs.Execution.Courses

/-!
# Buffers of requests that are given up

A request that is given up inside its backend takes the buffers of its slots with it.  Its response
does not hold them, its backend never leaves them, and nothing gives them back; so the allocator
counts them for ever, as it does with those that a request has when its task panics.  A request that
is given up anywhere else holds no buffers.
-/

namespace InferenceEngine

theorem Phase.Stays.isOpen {p p' : Phase} (h : p.Stays p') : p'.isOpen = p.isOpen := by
  rcases h with rfl | ⟨rfl, rfl⟩
  · rfl
  · rfl

theorem Phase.tags_of_isBeforeExecution {p : Phase} (h : p.isBeforeExecution = true) :
    p.tags = [] := by
  cases p with
  | accepted | waiting | granted => rfl
  | _ => cases h

theorem Phase.isBeforeExecution_of_isOpen {p : Phase} (h : p.isOpen = true)
    (houtside : ¬ p.isInside = true) : p.isBeforeExecution = true := by
  cases p with
  | accepted | waiting | granted => rfl
  | inBackend | atGate | letThrough => exact absurd rfl houtside
  | answered | closed => cases h

/-!
# Bytes in use
-/

theorem bytesIn_eq_zero_iff {domain : MemoryDomain} {region : Int} {tags : List BufferTag} :
    bytesIn domain region tags = 0 ↔
      forall t : BufferTag, t ∈ tags -> t.isIn domain region = true -> t.triple.size = 0 := by
  induction tags with
  | nil => exact ⟨fun _ t ht => (by cases ht), fun _ => rfl⟩
  | cons t rest ih =>
      rw [bytesIn_cons, Nat.add_eq_zero_iff, ih, List.forall_mem_cons]
      apply and_congr_left'
      split
      · rename_i hin
        exact ⟨fun hsize _ => hsize, fun h => h hin⟩
      · rename_i hout
        exact ⟨fun _ hin => absurd hin hout, fun _ => rfl⟩

/-- Whether the count of an allocator wraps: that of host memory does which has no limit. -/
def AllocatorKind.wraps : AllocatorKind -> Bool
  | host a => a.limit.isNone
  | _ => false

theorem HostAllocator.Counts.used_eq_zero_iff {a : HostAllocator} {live : List BufferTag}
    (h : a.Counts live) : a.used = 0 ↔
      (forall t : BufferTag, t ∈ live -> t.triple.size = 0) ∨
        a.limit.isNone = true ∧ Text.wordBound ∣ bytesIn .host 0 live := by
  have hsizes : bytesIn .host 0 live = 0 ↔
      forall t : BufferTag, t ∈ live -> t.triple.size = 0 := by
    rw [bytesIn_eq_zero_iff]
    have hin : forall t : BufferTag, t ∈ live -> t.isIn .host 0 = true := by
      intro t ht
      simp [BufferTag.isIn, h.host t ht, MemoryDomain.pool]
    exact ⟨fun hall t ht => hall t ht (hin t ht), fun hall t ht _ => hall t ht⟩
  rw [← hsizes, h.used, ← Nat.dvd_iff_mod_eq_zero]
  constructor
  · intro hdvd
    cases hlimit : a.limit with
    | none => exact .inr ⟨rfl, hdvd⟩
    | some limit =>
        have hbounded := h.bounded (by rw [hlimit]; rfl)
        exact .inl (Nat.eq_zero_of_dvd_of_lt hdvd hbounded)
  · rintro (hzero | ⟨_, hdvd⟩)
    · rw [hzero]
      exact Nat.dvd_zero _
    · exact hdvd

theorem PooledAllocator.Counts.used_eq_zero_iff {a : PooledAllocator} {live : List BufferTag}
    (h : a.Counts live) : (forall (domain : MemoryDomain) (region : Int) (p : Pool),
      a.pool? domain region = some p -> p.used = 0) ↔
        forall t : BufferTag, t ∈ live -> t.triple.size = 0 := by
  constructor
  · intro hzero t ht
    rcases h.known t ht with ⟨p, hp⟩
    have hused := h.used _ _ p hp
    rw [hzero _ _ p hp] at hused
    exact bytesIn_eq_zero_iff.1 hused.symm t ht (decide_eq_true rfl)
  · intro hsizes domain region p hp
    rw [h.used domain region p hp, bytesIn_eq_zero_iff]
    exact fun t ht _ => hsizes t ht

/-- Nothing is in use in any pool exactly if no byte is out, but for counts that wrap. -/
theorem Allocator.Accounts.usage_zero_iff {a : Allocator} {live spent : List BufferTag}
    (h : a.Accounts live spent) : (forall (domain : MemoryDomain) (region : Int) (used : Nat),
      a.usage domain region = some used -> used = 0) ↔
        (forall t : BufferTag, t ∈ live ++ spent -> t.triple.size = 0) ∨
          a.kind.wraps = true ∧ Text.wordBound ∣ bytesIn .host 0 (live ++ spent) := by
  have hcounts := h.counts
  unfold Allocator.usage
  cases hkind : a.kind with
  | host inner =>
      rw [hkind] at hcounts
      refine Iff.trans ?_ (HostAllocator.Counts.used_eq_zero_iff hcounts)
      constructor
      · exact fun hzero => hzero .host 0 _ rfl
      · rintro hzero domain region used ⟨⟩
        exact hzero
  | pooled inner =>
      rw [hkind] at hcounts
      have hpools := PooledAllocator.Counts.used_eq_zero_iff hcounts
      have hwraps : ¬ ((AllocatorKind.pooled inner).wraps = true ∧
          Text.wordBound ∣ bytesIn .host 0 (live ++ spent)) :=
        fun hboth => Bool.false_ne_true hboth.1
      rw [or_iff_left hwraps, ← hpools]
      constructor
      · intro hzero domain region p hp
        exact hzero domain region _ (Option.map_eq_some_iff.2 ⟨p, hp, rfl⟩)
      · intro hzero domain region used hused
        rcases Option.map_eq_some_iff.1 hused with ⟨p, hp, rfl⟩
        exact hzero domain region p hp
  | caller inner =>
      rw [hkind] at hcounts
      exact hcounts.elim

namespace Engine

/-!
# What is lost

A request whose backend has ended is over, and nothing of it is lost.
-/

/-- Whether a request is over though its backend, if it has entered it, has not ended. -/
def isCutOff (e : Engine) (n : Nat) : Bool :=
  !(e.submission n).phase.isOpen && !e.endings.any fun x => x.submission = n

/-- The tags of the buffers of an allocator that a request has taken into its backend, and that have
not come out of it. -/
def lostBy (e : Engine) (a : Nat) (x : Nat × ExecutionBatch) : List BufferTag :=
  if (e.server (e.submission x.1).server).allocator = a ∧ e.isCutOff x.1 = true then
    slotTags x.2.outputs
  else []

/-- The tags of the buffers of an allocator in the slots of requests that were given up inside their
backends. -/
def lostInside (e : Engine) (a : Nat) : List BufferTag := e.entries.flatMap (e.lostBy a)

theorem lostBy_congr {e e' : Engine} {x : Nat × ExecutionBatch}
    (hallocator : (e'.server (e'.submission x.1).server).allocator =
      (e.server (e.submission x.1).server).allocator)
    (hcut : e'.isCutOff x.1 = e.isCutOff x.1) (a : Nat) : e'.lostBy a x = e.lostBy a x := by
  unfold lostBy
  rw [hallocator, hcut]

theorem lostInside_congr {e e' : Engine} (hentries : e'.entries = e.entries)
    (hallocator : forall (n : Nat) (batch : ExecutionBatch), (n, batch) ∈ e.entries ->
      (e'.server (e'.submission n).server).allocator =
        (e.server (e.submission n).server).allocator)
    (hcut : forall (n : Nat) (batch : ExecutionBatch), (n, batch) ∈ e.entries ->
      e'.isCutOff n = e.isCutOff n) (a : Nat) : e'.lostInside a = e.lostInside a := by
  unfold lostInside
  rw [hentries]
  apply List.flatMap_congr
  rintro ⟨n, batch⟩ hentered
  exact lostBy_congr (x := (n, batch)) (hallocator n batch hentered) (hcut n batch hentered) a

theorem Spares.home {e e' : Engine} (h : e.Spares e') (n : Nat) :
    (e'.server (e'.submission n).server).allocator =
      (e.server (e.submission n).server).allocator := by
  rw [h.submission n, h.server]

/-- What has only to mind whether requests that have entered their backends are over. -/
theorem Spares.lostInside {e e' : Engine} (h : e.Spares e')
    (hopen : forall (n : Nat) (batch : ExecutionBatch), (n, batch) ∈ e.entries ->
      (e'.submission n).phase.isOpen = (e.submission n).phase.isOpen) (a : Nat) :
    e'.lostInside a = e.lostInside a := by
  refine lostInside_congr ?_ ?_ ?_ a
  · unfold entries
    rw [h.calls]
  · exact fun n _ _ => h.home n
  · intro n batch hentered
    unfold isCutOff
    rw [hopen n batch hentered, h.endings]

theorem Carried.ne_of_before {e : Engine} (h : e.Carried) {n m : Nat} {batch : ExecutionBatch}
    (hn : (e.submission n).phase.isBeforeExecution = true) (hm : (m, batch) ∈ e.entries) :
    m ≠ n := by
  rintro rfl
  have hbefore := (h.entered m batch hm).2
  rw [hn] at hbefore
  cases hbefore

theorem Spares.lostInside_setPhase {e middle : Engine} (h : e.Spares middle)
    (hsame : middle.submissions = e.submissions) {n : Nat} {p : Phase}
    (hn : (e.submission n).phase = p) (p' : Phase) (hp : p'.isOpen = p.isOpen) (a : Nat) :
    (middle.setPhase n p').lostInside a = e.lostInside a := by
  refine (h.trans (spares_setPhase middle n p')).lostInside (fun m _ _ => ?_) a
  have hphase : middle.submission m = e.submission m :=
    congrArg (fun all : List Submission => all.getD m default) hsame
  rw [submission_setPhase, hphase]
  split
  · rename_i hm
    rw [hm.1, hn]
    exact hp
  · rfl

theorem lostInside_comeBack (e : Engine) (n a : Nat) :
    (e.comeBack n).lostInside a = e.lostInside a := by
  refine (spares_comeBack e n).lostInside (fun m _ _ => ?_) a
  unfold submission
  rw [submissions_comeBack]

theorem lostInside_respond {e : Engine} (hlined : e.Lined) (hcarried : e.Carried) {n : Nat}
    (hn : (e.submission n).phase.isBeforeExecution = true)
    (result : Except Failure (List (String × OutputStorage))) (a : Nat) :
    (e.respond n result).lostInside a = e.lostInside a := by
  apply (spares_respond e n result).lostInside
  intro m batch hentered
  exact (stays_respond hlined (hcarried.ne_of_before hn hentered) result).isOpen

theorem lostInside_enroll {e : Engine} (hcarried : e.Carried) (server callback : Nat)
    (request : PreparedRequest) (a : Nat) :
    ((e.countIn server).enroll server request callback).lostInside a = e.lostInside a := by
  have hold : forall (n : Nat) (batch : ExecutionBatch), (n, batch) ∈ e.entries ->
      ((e.countIn server).enroll server request callback).submission n = e.submission n := by
    intro n batch hentered
    have hlt := (hcarried.entered n batch hentered).1
    exact (submission_enroll (e.countIn server) server callback request n).trans
      (if_neg (Nat.ne_of_lt hlt))
  refine lostInside_congr ?_ ?_ ?_ a
  · rfl
  · intro n batch hentered
    rw [hold n batch hentered]
    exact allocator_modifyServer rfl _
  · intro n batch hentered
    unfold isCutOff
    rw [hold n batch hentered]
    rfl

theorem lostInside_enterBackend {e : Engine} (hcarried : e.Carried) {n : Nat}
    (hn : (e.submission n).phase = .granted) (batch : ExecutionBatch) (a : Nat) :
    (e.enterBackend n batch).lostInside a = e.lostInside a := by
  have hlt : n < e.submissions.length := lt_of_phase (by rw [hn]; rfl)
  have hphase := phase_enterBackend hlt batch
  have hspares := spares_setPhase (e.record (.execute n batch)) n
    (.inBackend batch.outputs ((e.submission n).request.model.backend.run n batch))
  have hbefore : (e.submission n).phase.isBeforeExecution = true := by
    rw [hn]
    rfl
  unfold lostInside
  rw [entries_enterBackend, List.flatMap_append, List.flatMap_singleton]
  have hnew : (e.enterBackend n batch).lostBy a (n, batch) = [] := by
    unfold lostBy isCutOff
    rw [hphase, if_pos rfl, if_neg fun hboth => Bool.false_ne_true hboth.2]
  rw [hnew, List.append_nil]
  apply List.flatMap_congr
  rintro ⟨m, other⟩ hentered
  apply lostBy_congr
  · exact hspares.home m
  · unfold isCutOff
    rw [hphase, if_neg (hcarried.ne_of_before hbefore hentered)]
    rfl

theorem lostInside_leaveBackend {e : Engine} (hlined : e.Lined) {n : Nat}
    {held slots : List OutputSlot}
    {next : Behaviour} {result : Except Failure Unit}
    (hn : (e.submission n).phase = .inBackend held next) (a : Nat) :
    (e.leaveBackend n result slots).lostInside a = e.lostInside a := by
  have htaken : (e.takeSlots n result slots).Lined := hlined.of_parts rfl rfl
  have hspares := spares_respond (e.takeSlots n result slots) n (e.outcome n result slots).1
  have hendings : (e.leaveBackend n result slots).endings = e.endings ++ [⟨n, result, slots⟩] :=
    hspares.endings
  refine lostInside_congr ?_ ?_ ?_ a
  · unfold entries
    rw [show (e.leaveBackend n result slots).calls = e.calls from hspares.calls]
  · exact fun m _ _ => hspares.home m
  · intro m batch _
    unfold isCutOff
    rw [hendings, List.any_append]
    by_cases hm : m = n
    · have hinside : (Phase.inBackend held next).isOpen = true := rfl
      subst hm
      rw [hn, hinside]
      simp
    · have hopen := (stays_respond htaken hm (e.outcome n result slots).1).isOpen
      have hother : [(⟨n, result, slots⟩ : Ending)].any (fun x => x.submission = m) = false := by
        simp [Ne.symm hm]
      rw [hother, Bool.or_false]
      exact congrArg (!· && _) hopen

theorem Move.lostInside_eq {deed : Deed} {e e' : Engine} (h : Move deed e e')
    (hdeed : forall n : Nat, deed ≠ .cancel n ∧ deed ≠ .unwind n) (hreachable : e.Reachable)
    (a : Nat) :
    e'.lostInside a = e.lostInside a := by
  have hlined := hreachable.lined
  have htally := hreachable.tally
  have hcarried := hreachable.carried
  cases h with
  | cancel _ n => exact absurd rfl (hdeed n).1
  | unwind _ n => exact absurd rfl (hdeed n).2
  | schedule | directory | stops | addStats | close | addAllocator | useAllocator => rfl
  | create _ config version polled =>
      refine lostInside_congr ?_ ?_ ?_ a
      · simp [entries, record]
      · exact fun _ _ _ => rfl
      · exact fun _ _ _ => rfl
  | addServer _ options allocator table hallocator htable =>
      refine lostInside_congr ?_ ?_ ?_ a
      · rfl
      · intro n batch hentered
        have hlt := htally.server n (hcarried.entered n batch hentered).1
        rw [server_addServer]
        show (if (e.submission n).server = _ then _ else _ : Server).allocator = _
        rw [if_neg (Nat.ne_of_lt hlt)]
        rfl
      · exact fun _ _ _ => rfl
  | server _ n s hs =>
      refine lostInside_congr ?_ ?_ ?_ a
      · rfl
      · exact fun _ _ _ => allocator_modifyServer hs.allocator _
      · exact fun _ _ _ => rfl
  | enroll _ server callback provider request hstate hprepare =>
      exact lostInside_enroll hcarried server callback request a
  | awaitSlot _ n hn =>
      have hqueue := spares_modifyServer (f := fun s => { s with waiting := s.waiting ++ [n] }) e
        (e.submission n).server fun _ => rfl
      exact hqueue.lostInside_setPhase rfl hn .waiting rfl a
  | takeSlot _ e' n hn htake =>
      rcases takeSlot?_eq_some htake with ⟨free, rfl⟩
      have htaken := spares_modifyServer (f := fun s => { s with freeSlots := free }) e
        (e.submission n).server fun _ => rfl
      exact htaken.lostInside_setPhase rfl hn .granted rfl a
  | gatherFails _ n failure hn hgather =>
      exact lostInside_respond hlined hcarried (by rw [hn]; rfl) _ a
  | allocateFails _ n failure k events hn hallocate =>
      exact lostInside_respond
        (e := (e.setMemory (e.submission n).server ⟨k, e.directory⟩).report events)
        (hlined.of_parts rfl rfl) (hcarried.of_parts rfl rfl rfl)
        (show (e.submission n).phase.isBeforeExecution = true by rw [hn]; rfl) _ a
  | enter _ n inputs slots k events hn hgather hallocate =>
      exact lostInside_enterBackend
        (e := (e.setMemory (e.submission n).server ⟨k, e.directory⟩).report events)
        (hcarried.of_parts rfl rfl rfl) hn _ a
  | turn _ n p hn =>
      exact (Spares.refl e).lostInside_setPhase rfl rfl p hn.isOpen_eq a
  | leave _ n held next result slots hn hnext => exact lostInside_leaveBackend hlined hn a
  | comeBack _ n hn => exact lostInside_comeBack e n a
  | dropResponse _ n response hn =>
      have hreleased : e.Spares (e.releaseResponse response) :=
        .of_parts rfl rfl rfl rfl rfl rfl rfl
      exact hreleased.lostInside_setPhase rfl hn .closed rfl a
  | ignore _ n =>
      refine (spares_ignore e n).lostInside (fun m _ _ => ?_) a
      rw [phase_ignore]

/-!
# Giving up

A request is given up, and other requests have lost what they had lost.
-/

theorem phase_giveUp_self {e : Engine} {n : Nat} (hn : (e.submission n).phase.isOpen = true) :
    ((e.giveUp n).submission n).phase =
      (e.withdraw n).received n (e.responseTo n 0 (.error .cancelled)) := by
  have hlt : n < (e.withdraw n).submissions.length := by
    rw [(spares_withdraw e n).submissions]
    exact lt_of_phase hn
  unfold giveUp
  rw [phase_callBack, if_pos ⟨rfl, hlt⟩]
  rfl

theorem isCutOff_giveUp {e : Engine} (hcarried : e.Carried) {n : Nat}
    (hn : (e.submission n).phase.isOpen = true) : (e.giveUp n).isCutOff n = true := by
  have hover : ((e.giveUp n).submission n).phase.isOpen = false := by
    rw [phase_giveUp_self hn]
    unfold received
    split <;> rfl
  have hnone : (e.giveUp n).endings.any (fun x => x.submission = n) = false := by
    rw [(spares_giveUp e n).endings, List.any_eq_false]
    intro x hx hsame
    have hclosed := (hcarried.ended x hx).1
    rw [of_decide_eq_true hsame, hn] at hclosed
    cases hclosed
  unfold isCutOff
  rw [hover, hnone]
  rfl

theorem lostBy_giveUp_of_ne {e : Engine} (hlined : e.Lined) {n m : Nat} (hm : m ≠ n)
    (batch : ExecutionBatch) (a : Nat) :
    (e.giveUp n).lostBy a (m, batch) = e.lostBy a (m, batch) := by
  have hspares := spares_giveUp e n
  apply lostBy_congr (x := (m, batch))
  · exact hspares.home m
  · unfold isCutOff
    rw [(stays_giveUp hlined hm).isOpen, hspares.endings]

theorem lostBy_of_isOpen {e : Engine} {n : Nat} (hn : (e.submission n).phase.isOpen = true)
    (batch : ExecutionBatch) (a : Nat) : e.lostBy a (n, batch) = [] := by
  unfold lostBy isCutOff
  rw [hn, if_neg fun hboth => Bool.false_ne_true hboth.2]

/-- The slots that have gone into the backend are those that the request held inside. -/
theorem lostBy_giveUp_self {e : Engine} (hcarried : e.Carried) {n : Nat}
    (hinside : (e.submission n).phase.isInside = true) {batch : ExecutionBatch}
    (hfollows : (e.submission n).phase.Follows
      ((e.submission n).request.model.backend.run n batch) batch.outputs) (a : Nat) :
    ((e.giveUp n).lostBy a (n, batch)).Perm (e.tagsOf a n) := by
  unfold lostBy tagsOf
  rw [(spares_giveUp e n).home n, isCutOff_giveUp hcarried (Phase.isOpen_of_isInside hinside)]
  simp only [and_true]
  split
  · have hkeeps := (e.submission n).request.model.backend.keeps n batch
    rw [Phase.tags_of_isInside hinside]
    exact (hfollows.rearranged hkeeps hinside).tags.symm
  · exact List.Perm.refl _

theorem Carried.split_entries {e : Engine} (h : e.Carried) {n : Nat} {batch : ExecutionBatch}
    (hentered : (n, batch) ∈ e.entries) : exists earlier later : List (Nat × ExecutionBatch),
      e.entries = earlier ++ (n, batch) :: later ∧
        forall x : Nat × ExecutionBatch, x ∈ earlier ++ later -> x.1 ≠ n := by
  rcases List.append_of_mem hentered with ⟨earlier, later, hsplit⟩
  have honce := h.enteredOnce n
  unfold timesEntered at honce
  rw [hsplit, List.perm_middle.countP_eq, List.countP_cons_of_pos (by simp)] at honce
  have hnone := Nat.le_zero.1 (Nat.le_of_succ_le_succ honce)
  refine ⟨earlier, later, hsplit, fun x hx hsame => ?_⟩
  exact List.countP_eq_zero.1 hnone x hx (decide_eq_true hsame)

theorem lostInside_giveUp {e : Engine} (hlined : e.Lined) (hcarried : e.Carried) {n : Nat}
    (hn : (e.submission n).phase.isOpen = true) (a : Nat) :
    ((e.giveUp n).lostInside a).Perm (e.tagsOf a n ++ e.lostInside a) := by
  have hentries : (e.giveUp n).entries = e.entries := by
    unfold entries
    rw [(spares_giveUp e n).calls]
  unfold lostInside
  rw [hentries]
  by_cases hinside : (e.submission n).phase.isInside = true
  · rcases hcarried.inside n hinside with ⟨batch, hentered, hfollows⟩
    rcases hcarried.split_entries hentered with ⟨earlier, later, hsplit, hothers⟩
    have hsame : (earlier ++ later).flatMap ((e.giveUp n).lostBy a) =
        (earlier ++ later).flatMap (e.lostBy a) :=
      List.flatMap_congr fun x hx => lostBy_giveUp_of_ne hlined (hothers x hx) x.2 a
    have hfirst : e.entries.Perm ((n, batch) :: (earlier ++ later)) := by
      rw [hsplit]
      exact List.perm_middle
    have hnow := hfirst.flatMap_right ((e.giveUp n).lostBy a)
    have hbefore := hfirst.flatMap_right (e.lostBy a)
    rw [List.flatMap_cons, hsame] at hnow
    rw [List.flatMap_cons, lostBy_of_isOpen hn, List.nil_append] at hbefore
    exact hnow.trans ((lostBy_giveUp_self hcarried hinside hfollows a).append hbefore.symm)
  · have hbefore := Phase.isBeforeExecution_of_isOpen hn hinside
    rw [tagsOf_eq_nil (Phase.tags_of_isBeforeExecution hbefore), List.nil_append,
      List.flatMap_congr]
    rintro ⟨m, batch⟩ hentered
    exact lostBy_giveUp_of_ne hlined (hcarried.ne_of_before hbefore hentered) batch a

theorem allocator_releaseResponse {e : Engine} {response : Response} (h : response.buffers = [])
    (a : Nat) : (e.releaseResponse response).allocator a = e.allocator a := by
  have hset : (e.releaseResponse response).allocator a =
      (e.setAllocator response.allocator (e.allocator response.allocator)).allocator a := by
    unfold releaseResponse
    rw [h]
    rfl
  rw [hset, allocator_setAllocator]
  split
  · rename_i ha
    rw [ha.1]
  · rfl

theorem allocator_giveUp (e : Engine) (n a : Nat) : (e.giveUp n).allocator a = e.allocator a := by
  have hwithdrawn : (e.withdraw n).allocator a = e.allocator a := by
    unfold allocator
    simp only [withdraw]
    split
    · rw [allocators_releaseSlot]
    · rfl
  have hcalled := allocators_callBack
    ((e.withdraw n).report [.requestDropped (e.submission n).request.id]) n none
    (e.responseTo n 0 (.error .cancelled))
  unfold giveUp allocator
  rw [hcalled]
  split
  · exact hwithdrawn
  · exact (allocator_releaseResponse rfl a).trans hwithdrawn

theorem live_giveUp {e : Engine} (hlined : e.Lined) {n : Nat}
    (hn : (e.submission n).phase.isOpen = true) (a : Nat) :
    ((e.giveUp n).live a).Perm (e.liveBut a n) := by
  have hspares := spares_giveUp e n
  have hlt : n < (e.giveUp n).submissions.length := by
    rw [hspares.submissions]
    exact lt_of_phase hn
  have hothers : (e.giveUp n).liveBut a n = e.liveBut a n :=
    liveBut_congr hspares.submissions fun m hm _ =>
      hspares.tagsOf (stays_giveUp hlined hm).tags a
  have hown : (e.giveUp n).tagsOf a n = [] := by
    apply tagsOf_eq_nil
    rw [phase_giveUp_self hn]
    unfold received
    split
    · exact Response.tags_ofResult _ _ 0 (.error .cancelled)
    · rfl
  have hperm := live_perm hlt a
  rw [hown, hothers] at hperm
  exact hperm

/-!
# Panics

A request stays with its allocator.
-/

/-- The tags of the buffers of an allocator in the slots that requests had when their tasks
panicked. -/
def forfeited (e : Engine) (a : Nat) : List BufferTag :=
  e.unwindings.flatMap fun u =>
    if (e.server (e.submission u.submission).server).allocator = a then slotTags u.slots else []

def Unwound (e : Engine) : Prop :=
  forall u : Unwinding, u ∈ e.unwindings -> u.submission < e.submissions.length

theorem Move.unwound {deed : Deed} {e e' : Engine} (h : Move deed e e') (k : e.Unwound) :
    e'.Unwound := by
  intro u hu
  rcases h.unwindings with ⟨hsame, _⟩ | ⟨n, slots, rfl, hmore⟩
  · rw [hsame] at hu
    exact (h.keepsRequests _ (k u hu)).1
  · rw [hmore] at hu
    rcases List.mem_append.1 hu with hold | hnew
    · exact (h.keepsRequests _ (k u hold)).1
    · rw [List.mem_singleton.1 hnew]
      cases h with
      | unwind _ _ _ _ _ hn hallocate =>
          have hlt : n < e.submissions.length := lt_of_phase (by rw [hn]; rfl)
          rw [(spares_giveUp (e.forfeit n _ _ _) n).submissions]
          exact hlt

theorem Reachable.unwound {e : Engine} (h : e.Reachable) : e.Unwound :=
  Reachable.induct (fun u hu => by cases hu)
    (fun _ _ _ _ hmove hunwound => hmove.unwound hunwound) h

theorem Move.home {deed : Deed} {e e' : Engine} (h : Move deed e e') (htally : e.Tally) {n : Nat}
    (hn : n < e.submissions.length) :
    (e'.server (e'.submission n).server).allocator =
      (e.server (e.submission n).server).allocator := by
  rw [(h.keepsRequests n hn).2]
  exact (h.keepsAllocator (htally.server n hn)).2

theorem Move.forfeited_old {deed : Deed} {e e' : Engine} (h : Move deed e e')
    (hreachable : e.Reachable) (a : Nat) :
    (e.unwindings.flatMap fun u =>
      if (e'.server (e'.submission u.submission).server).allocator = a then slotTags u.slots
      else []) = e.forfeited a := by
  apply List.flatMap_congr
  intro u hu
  rw [h.home hreachable.tally (hreachable.unwound u hu)]

/-- The slots that a request has are forfeited if its task panics, and by nothing else. -/
theorem Move.forfeited_eq {deed : Deed} {e e' : Engine} (h : Move deed e e')
    (hdeed : forall n : Nat, deed ≠ .unwind n) (hreachable : e.Reachable) (a : Nat) :
    e'.forfeited a = e.forfeited a := by
  rcases h.unwindings with ⟨hsame, _⟩ | ⟨n, _, hunwind, _⟩
  · unfold forfeited
    rw [hsame]
    exact h.forfeited_old hreachable a
  · exact absurd hunwind (hdeed n)

theorem forfeited_unwind {e : Engine} (hreachable : e.Reachable) {n : Nat} {k : Allocator}
    {slots : List OutputSlot} {events : List Event}
    (h : Move (.unwind n) e ((e.forfeit n slots k events).giveUp n)) (a : Nat) :
    ((e.forfeit n slots k events).giveUp n).forfeited a = e.forfeited a ++
      if (e.server (e.submission n).server).allocator = a then slotTags slots else [] := by
  have hmore : ((e.forfeit n slots k events).giveUp n).unwindings = e.unwindings ++ [⟨n, slots⟩] :=
    (spares_giveUp (e.forfeit n slots k events) n).unwindings
  have hhome := (spares_giveUp (e.forfeit n slots k events) n).home n
  unfold forfeited
  rw [hmore, List.flatMap_append, List.flatMap_singleton, h.forfeited_old hreachable a, hhome]
  rfl

/-!
# All that is lost

Giving a request up moves what it holds to what is lost.
-/

/-- The tags of the buffers of an allocator that are lost: those of requests that were given up
inside their backends, and those of requests whose tasks panicked. -/
def lost (e : Engine) (a : Nat) : List BufferTag := e.lostInside a ++ e.forfeited a

/-- What the calls of an allocator that panicked had been asked for. -/
def spent (e : Engine) (a : Nat) : List BufferTag := (e.allocator a).ledger.panicked

theorem BooksWith.spent {e : Engine} {a : Nat} {lost spent : List BufferTag}
    (h : e.BooksWith a lost spent) : e.BooksWith a lost (e.spent a) := by
  intro hregular
  have haccounts := h hregular
  unfold Engine.spent
  rw [haccounts.panicked]
  exact haccounts

theorem lost_comeBack (e : Engine) (n a : Nat) : (e.comeBack n).lost a = e.lost a := by
  have hforfeited : (e.comeBack n).forfeited a = e.forfeited a := by
    unfold forfeited
    rw [(spares_comeBack e n).unwindings]
    apply List.flatMap_congr
    intro u _
    rw [(spares_comeBack e n).home]
  unfold lost
  rw [lostInside_comeBack, hforfeited]

theorem lost_cancel {e : Engine} (hreachable : e.Reachable) {n : Nat}
    (hn : (e.submission n).phase.isOpen = true) (a : Nat) :
    ((e.giveUp n).lost a).Perm (e.tagsOf a n ++ e.lost a) := by
  have hinside := lostInside_giveUp hreachable.lined hreachable.carried hn a
  have hforfeited := (Move.cancel e n hn).forfeited_eq (fun _ => nofun) hreachable a
  unfold lost
  rw [hforfeited, ← List.append_assoc]
  exact hinside.append_right _

theorem BooksWith.giveUp {e : Engine} {a n : Nat} {spent : List BufferTag}
    (h : e.BooksWith a (e.lost a) spent) (hreachable : e.Reachable)
    (hn : (e.submission n).phase.isOpen = true) :
    (e.giveUp n).BooksWith a ((e.giveUp n).lost a) spent := by
  unfold BooksWith
  rw [allocator_giveUp]
  refine (h.split (lt_of_phase hn)).perm ((List.perm_append_comm_assoc _ _ _).trans ?_)
  exact ((live_giveUp hreachable.lined hn a).append (lost_cancel hreachable hn a)).symm

theorem BooksWith.unwind {e : Engine} {a n : Nat} {spent : List BufferTag} {k : Allocator}
    {slots : List OutputSlot} {events : List Event} (h : e.BooksWith a (e.lost a) spent)
    (hreachable : e.Reachable) (hn : (e.submission n).phase = .granted)
    (hallocate : Execution.allocate (e.submission n).request.model.config.placement
      (e.memory (e.submission n).server).allocator [] (e.submission n).request.outputs =
        (.panicked slots, k, events)) :
    exists more : List BufferTag, ((e.forfeit n slots k events).giveUp n).BooksWith a
      (((e.forfeit n slots k events).giveUp n).lost a) more := by
  have hopen : (e.submission n).phase.isOpen = true := by
    rw [hn]
    rfl
  have hlined : (e.forfeit n slots k events).Lined := hreachable.lined.of_parts rfl rfl
  have hcarried : (e.forfeit n slots k events).Carried := hreachable.carried.of_parts rfl rfl rfl
  have hlive : (((e.forfeit n slots k events).giveUp n).live a).Perm (e.liveBut a n) :=
    live_giveUp hlined hopen a
  have hinside : (((e.forfeit n slots k events).giveUp n).lostInside a).Perm (e.lostInside a) := by
    have hlost := lostInside_giveUp hlined hcarried hopen a
    have hnothing : (e.submission n).phase.tags = [] := by
      rw [hn]
      rfl
    rw [tagsOf_eq_nil (e := e.forfeit n slots k events) hnothing] at hlost
    exact hlost
  have hforfeited := forfeited_unwind hreachable (.unwind e n slots k events hn hallocate) a
  rcases h.allocate hreachable.homes hreachable.tally hn hallocate with ⟨more, hused, _⟩
  refine ⟨spent ++ more, ?_⟩
  unfold BooksWith
  rw [allocator_giveUp]
  refine Allocator.InOrder.perm hused (List.perm_append_comm.trans ?_)
  unfold lost
  rw [hforfeited, List.append_assoc, List.append_assoc]
  exact hlive.symm.append (hinside.symm.append_right _)

/-!
# Runs

Of an allocator that does not exist, nothing is lost or spent.
-/

theorem lost_eq_nil {e : Engine} (h : e.Reachable) {a : Nat} (ha : e.allocators.length ≤ a) :
    e.lost a = [] ∧ e.spent a = [] := by
  have hother : forall n : Nat, n < e.submissions.length ->
      (e.server (e.submission n).server).allocator ≠ a := by
    intro n hn
    exact Nat.ne_of_lt (Nat.lt_of_lt_of_le (h.homes.allocator _ (h.tally.server n hn)) ha)
  constructor
  · unfold lost lostInside forfeited
    rw [List.append_eq_nil_iff, List.flatMap_eq_nil_iff, List.flatMap_eq_nil_iff]
    constructor
    · rintro ⟨n, batch⟩ hentered
      exact if_neg fun hboth => hother n (h.carried.entered n batch hentered).1 hboth.1
    · exact fun u hu => if_neg (hother _ (h.unwound u hu))
  · unfold spent allocator
    rw [List.getD_eq_getElem?_getD, List.getElem?_eq_none ha]
    rfl

theorem Move.booksWith_lost {deed : Deed} {e e' : Engine} {a : Nat} (h : Move deed e e')
    (hdeed : deed.Leaves a) (hreachable : e.Reachable)
    (k : e.BooksWith a (e.lost a) (e.spent a)) : e'.BooksWith a (e'.lost a) (e'.spent a) := by
  have hnothing : e.allocators.length ≤ a -> e.lost a = [] ∧ e.spent a = [] :=
    lost_eq_nil hreachable
  have hquiet : (forall n : Nat, deed ≠ .cancel n ∧ deed ≠ .unwind n) ->
      e'.BooksWith a (e'.lost a) (e'.spent a) := by
    intro hnot
    have horderly : deed.IsOrderly a := by
      cases deed with
      | cancel n => exact absurd rfl (hnot n).1
      | unwind n => exact absurd rfl (hnot n).2
      | use n => exact fun hsame => hdeed (congrArg Deed.use hsame)
      | _ => exact trivial
    have hsame : e'.lost a = e.lost a := by
      unfold lost
      rw [h.lostInside_eq hnot hreachable, h.forfeited_eq (fun n => (hnot n).2) hreachable]
    rw [hsame]
    exact (h.booksWith horderly hreachable hnothing k).spent
  cases deed with
  | cancel n =>
      cases h with
      | cancel _ _ hn => exact (k.giveUp hreachable hn).spent
  | unwind n =>
      cases h with
      | unwind _ _ slots b events hn hallocate =>
          rcases k.unwind hreachable hn hallocate with ⟨more, hbooks⟩
          exact hbooks.spent
  | _ => exact hquiet fun _ => ⟨nofun, nofun⟩

theorem Moves.booksWith_lost {e e' : Engine} {a : Nat} (h : Moves (Deed.Leaves a) e e')
    (hreachable : e.Reachable) (k : e.BooksWith a (e.lost a) (e.spent a)) :
    e'.BooksWith a (e'.lost a) (e'.spent a) := by
  refine Moves.induct_of_reachable (P := fun e => e.BooksWith a (e.lost a) (e.spent a)) ?_ h
    hreachable k
  intro deed middle e' hdeed hmiddle hmove hbooks
  have hleaves : deed.Leaves a := by
    rcases hdeed with rfl | hleaves
    · exact nofun
    · exact hleaves
  exact hmove.booksWith_lost hleaves hmiddle hbooks

/-- After a run that leaves an allocator to its servers, in which tasks may be dropped at any time,
also all of them at once, and at each moment of what comes next: the allocator counts the buffers
that requests hold and those that are lost, and what its calls that panicked were asked for.  A
request that is given up loses what it holds then, which is nothing unless it is inside its backend.
Once no request is in flight and all responses are dropped, what is lost is out and nothing else; so
nothing is in use exactly if no byte is lost or spent, but for counts that wrap. -/
theorem usage_counts_losses (a : Nat) (ops : List Operation) (e : Engine)
    (hops : forall op : Operation, op ∈ ops -> op.Leaves a)
    (he : Moves (Deed.Leaves a) (reached ops) e)
    (hregular : (e.allocator a).kind.isRegular = true) :
    (e.allocator a).Accounts (e.live a ++ e.lost a) (e.spent a) ∧
      (forall n : Nat, (e.submission n).phase.isOpen = true ->
        ((e.cancel n).lost a).Perm (e.tagsOf a n ++ e.lost a)) ∧
      (forall n : Nat, (e.submission n).phase.isBeforeExecution = true -> e.tagsOf a n = []) ∧
      ((forall k : Nat, (e.server k).allocator = a -> (e.server k).inflight = 0) ->
        (forall n : Nat, (e.server (e.submission n).server).allocator = a ->
          e.response? n = none) ->
        (e.allocator a).Accounts (e.lost a) (e.spent a) ∧
          ((forall (domain : MemoryDomain) (region : Int) (used : Nat),
            (e.allocator a).usage domain region = some used -> used = 0) ↔
          (forall t : BufferTag, t ∈ e.lost a ++ e.spent a -> t.triple.size = 0) ∨
            (e.allocator a).kind.wraps = true ∧
              Text.wordBound ∣ bytesIn .host 0 (e.lost a ++ e.spent a))) := by
  have hrun : Moves (Deed.Leaves a) empty (reached ops) :=
    moves_after sound_empty ops fun op hop _ _ hdoes => (hops op hop).of_does hdoes
  have hreachable : e.Reachable := (reachable_reached ops).moves he
  have haccounts : (e.allocator a).Accounts (e.live a ++ e.lost a) (e.spent a) :=
    (hrun.trans he).booksWith_lost (Moves.refl empty) (booksWith_nil.2 (books_empty a)) hregular
  refine ⟨haccounts, ?_, ?_, ?_⟩
  · intro n hn
    unfold cancel
    rw [if_pos hn, lost_comeBack]
    exact lost_cancel hreachable hn a
  · exact fun n hn => tagsOf_eq_nil (Phase.tags_of_isBeforeExecution hn)
  · intro hdone hdropped
    rw [hreachable.live_eq_nil hdone hdropped] at haccounts
    exact ⟨haccounts, haccounts.usage_zero_iff⟩

/-- The runtime is shut down while a request waits at the gate inside its backend, and then its
response is dropped. -/
def shutDownRun : List Operation :=
  [.build { ServerOptions.default with executionSlots := 1 } none (.ok [⟨copyModel, [1]⟩])
      (some fun _ _ => ⟨false, .ok gatedBackend⟩) true,
    .submit 0 gatedProvider 7, .runAt 0, .close, .dropResponse 0]

theorem losses_of_shutDownRun : (forall op : Operation, op ∈ shutDownRun -> op.Leaves 0) ∧
    Moves (Deed.Leaves 0) (reached shutDownRun) (reached shutDownRun) ∧
    ((reached shutDownRun).allocator 0).kind.isRegular = true ∧
    ((reached shutDownRun).allocator 0).Accounts [⟨0, 2, .host, 0⟩] [] := by
  have hops : forall op : Operation, op ∈ shutDownRun -> op.Leaves 0 := by
    intro op hop
    simp only [shutDownRun, List.mem_cons, List.not_mem_nil, or_false] at hop
    rcases hop with rfl | rfl | rfl | rfl | rfl <;> exact trivial
  have hregular : ((reached shutDownRun).allocator 0).kind.isRegular = true := rfl
  have hall := usage_counts_losses 0 shutDownRun _ hops (Moves.refl _) hregular
  exact ⟨hops, Moves.refl _, hregular, hall.1⟩

/-- Then the callback has been called, nothing is in flight and no response is held, but the two
bytes of the output are still in use. -/
theorem usage_of_shutDownRun :
    (reached shutDownRun).isRunning = false ∧
    (reached shutDownRun).submissions.length = 1 ∧ (reached shutDownRun).servers.length = 1 ∧
    (reached shutDownRun).invocations 7 = 1 ∧
    ((reached shutDownRun).server 0).inflight = 0 ∧ (reached shutDownRun).response? 0 = none ∧
    ((reached shutDownRun).allocator 0).usage .host 0 = some 2 := by
  refine ⟨rfl, rfl, rfl, rfl, rfl, rfl, rfl⟩

end Engine

end InferenceEngine
