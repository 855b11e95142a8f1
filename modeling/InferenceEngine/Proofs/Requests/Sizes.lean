import InferenceEngine.Proofs.Verdict
import InferenceEngine.Tensor

/-!
# Sizes of tensors

The number of bytes of a batch is the product of the dimensions of its tensor, the size of an
element and the size of the batch.  The factors are multiplied one after the other, and there is
a size only if no dimension is negative and each of these products fits into a word; then it is
the exact one.
-/

namespace InferenceEngine

namespace TensorSpec

/-- The number of elements of a tensor that has certain dimensions. -/
def volume (dims : List Int) : Nat := dims.foldr (fun dim count => dim.toNat * count) 1

def batchSize (spec : TensorSpec) (batch : Nat) : Nat :=
  volume spec.dims * spec.dataType.byteSize * batch

structure IsSized (spec : TensorSpec) (batch : Nat) : Prop where
  dims : forall dim, dim ∈ spec.dims -> 0 ≤ dim
  elements : forall k : Nat, volume (spec.dims.take k) < Text.wordBound
  bytes : volume spec.dims * spec.dataType.byteSize < Text.wordBound
  batch : spec.batchSize batch < Text.wordBound

/-- The checks of dimensions that come after others, in order: none of them varies, none is
negative, and the elements so far can be counted. -/
def dimChecks (tensor : String) (before : List Int) : List Int -> List (Bool × Failure)
  | [] => []
  | dim :: rest =>
      (decide (dim ≠ -1), .variableDimension tensor) ::
      (decide (0 ≤ dim), .invalidDimension tensor dim) ::
      (decide (volume (before ++ [dim]) < Text.wordBound), .tensorTooLarge tensor) ::
      dimChecks tensor (before ++ [dim]) rest

def sizeChecks (spec : TensorSpec) (batch : Nat) : List (Bool × Failure) :=
  dimChecks spec.name [] spec.dims ++
    [(decide (volume spec.dims * spec.dataType.byteSize < Text.wordBound),
        .tensorTooLarge spec.name),
      (decide (spec.batchSize batch < Text.wordBound), .batchTooLarge spec.name)]

/-!
# Products
-/

theorem volume_append (first rest : List Int) :
    volume (first ++ rest) = volume first * volume rest := by
  induction first with
  | nil => exact (Nat.one_mul _).symm
  | cons dim more ih =>
      change dim.toNat * volume (more ++ rest) = dim.toNat * volume more * volume rest
      rw [ih, Nat.mul_assoc]

theorem volume_concat (dims : List Int) (dim : Int) :
    volume (dims ++ [dim]) = volume dims * dim.toNat := by
  rw [volume_append]
  exact congrArg (volume dims * ·) (Nat.mul_one _)

theorem product?_eq_some {a b n : Nat} (h : product? a b = some n) :
    n = a * b ∧ a * b < Text.wordBound := by
  unfold product? at h
  split at h
  · rename_i hfits
    exact ⟨(Option.some.inj h).symm, hfits⟩
  · cases h

theorem product?_eq_none {a b : Nat} (h : product? a b = none) : ¬ a * b < Text.wordBound := by
  unfold product? at h
  split at h
  · cases h
  · assumption

/-!
# The checks are those that are made

A size that is computed is the exact product.
-/

theorem elements_eq_ok {tensor : String} {dims : List Int} {count : Nat} (before : List Int)
    (h : elements tensor (volume before) dims = .ok count) : count = volume (before ++ dims) := by
  induction dims generalizing before with
  | nil =>
      rw [List.append_nil]
      exact (Except.ok.inj h).symm
  | cons dim rest ih =>
      unfold elements at h
      split at h
      · cases h
      · split at h
        · cases h
        · cases hproduct : product? (volume before) dim.toNat with
          | none =>
              rw [hproduct] at h
              cases h
          | some n =>
              rw [hproduct] at h
              rw [(product?_eq_some hproduct).1, ← volume_concat] at h
              rw [ih _ h, List.append_assoc, List.singleton_append]

theorem verdict_elements (tensor : String) (before dims : List Int) :
    verdict (elements tensor (volume before) dims) =
      firstFailure (dimChecks tensor before dims) := by
  induction dims generalizing before with
  | nil => rfl
  | cons dim rest ih =>
      unfold elements dimChecks
      rw [firstFailure_cons, firstFailure_cons, firstFailure_cons]
      by_cases hvaries : dim = -1
      · simp [hvaries, verdict, Except.map]
      · by_cases hnegative : dim < 0
        · simp [hvaries, hnegative, verdict, Except.map, Int.not_le.2 hnegative]
        · rw [if_neg hvaries, if_neg hnegative, if_pos (decide_eq_true hvaries),
            if_pos (decide_eq_true (Int.not_lt.1 hnegative)), ← ih, volume_concat]
          cases hproduct : product? (volume before) dim.toNat with
          | none =>
              rw [if_neg (by simpa using product?_eq_none hproduct)]
              rfl
          | some n =>
              rcases product?_eq_some hproduct with ⟨rfl, hfits⟩
              rw [if_pos (decide_eq_true hfits)]

theorem instanceByteSize_eq_ok {spec : TensorSpec} {size : Nat}
    (h : spec.instanceByteSize = .ok size) : size = volume spec.dims * spec.dataType.byteSize := by
  unfold instanceByteSize at h
  rcases bind_eq_ok h with ⟨count, hcount, hsize⟩
  have hvolume : count = volume spec.dims := elements_eq_ok [] hcount
  split at hsize
  · cases hsize
  · rename_i hproduct
    cases hsize
    rw [(product?_eq_some hproduct).1, hvolume]

theorem batchByteSize_eq_ok {spec : TensorSpec} {batch size : Nat}
    (h : spec.batchByteSize batch = .ok size) : size = spec.batchSize batch := by
  unfold batchByteSize at h
  rcases bind_eq_ok h with ⟨one, hone, hsize⟩
  split at hsize
  · cases hsize
  · rename_i hproduct
    cases hsize
    rw [(product?_eq_some hproduct).1, instanceByteSize_eq_ok hone]
    rfl

theorem verdict_product? (a b : Nat) (failure : Failure) :
    verdict (match product? a b with
      | none => .error failure
      | some n => .ok n) = firstFailure [(decide (a * b < Text.wordBound), failure)] := by
  rw [firstFailure_cons]
  cases hproduct : product? a b with
  | none =>
      rw [if_neg (by simpa using product?_eq_none hproduct)]
      rfl
  | some n =>
      rw [if_pos (decide_eq_true (product?_eq_some hproduct).2)]
      rfl

theorem verdict_batchByteSize (spec : TensorSpec) (batch : Nat) :
    verdict (spec.batchByteSize batch) = firstFailure (spec.sizeChecks batch) := by
  have hinstance : verdict spec.instanceByteSize =
      firstFailure (dimChecks spec.name [] spec.dims) >>= fun _ =>
        firstFailure [(decide (volume spec.dims * spec.dataType.byteSize < Text.wordBound),
          .tensorTooLarge spec.name)] := by
    unfold instanceByteSize
    rw [← verdict_elements]
    apply verdict_bind
    intro count hcount
    have hvolume : count = volume spec.dims := elements_eq_ok [] hcount
    rw [hvolume]
    exact verdict_product? _ _ _
  unfold batchByteSize sizeChecks
  rw [firstFailure_append, ← List.singleton_append, firstFailure_append, ← bind_assoc, ← hinstance]
  apply verdict_bind
  intro size hsize
  rw [instanceByteSize_eq_ok hsize]
  exact verdict_product? _ _ _

/-- A product that does not fit is not saved by a factor of zero that comes after it. -/
example : TensorSpec.batchByteSize ⟨"t", .uint8, [4294967296, 4294967296, 0]⟩ 1 =
    .error (.tensorTooLarge "t") := rfl

/-!
# What the checks amount to
-/

theorem dimChecks_hold_iff {tensor : String} {before dims : List Int}
    (hbefore : volume before < Text.wordBound) :
    (forall c, c ∈ dimChecks tensor before dims -> c.1 = true) ↔
      (forall dim, dim ∈ dims -> 0 ≤ dim) ∧
        forall k : Nat, volume (before ++ dims.take k) < Text.wordBound := by
  induction dims generalizing before with
  | nil => simp [dimChecks, hbefore]
  | cons dim rest ih =>
      unfold dimChecks
      simp only [List.forall_mem_cons, decide_eq_true_eq]
      constructor
      · rintro ⟨_, hdim, hfits, hrest⟩
        rcases (ih hfits).1 hrest with ⟨hdims, helements⟩
        constructor
        · exact ⟨hdim, hdims⟩
        · intro k
          cases k with
          | zero => simpa using hbefore
          | succ k => simpa using helements k
      · rintro ⟨⟨hdim, hdims⟩, helements⟩
        have hfits : volume (before ++ [dim]) < Text.wordBound := by simpa using helements 1
        have hvaries : dim ≠ -1 := by
          intro hsame
          rw [hsame] at hdim
          cases hdim
        refine ⟨hvaries, hdim, hfits, (ih hfits).2 ⟨hdims, ?_⟩⟩
        intro k
        simpa using helements (k + 1)

theorem sizeChecks_hold_iff {spec : TensorSpec} {batch : Nat} :
    (forall c, c ∈ spec.sizeChecks batch -> c.1 = true) ↔ spec.IsSized batch := by
  have hnone : volume [] < Text.wordBound := by decide
  unfold sizeChecks
  rw [List.forall_mem_append, dimChecks_hold_iff hnone]
  simp only [List.forall_mem_cons, decide_eq_true_eq, List.not_mem_nil, false_imp_iff,
    implies_true, and_true, List.nil_append]
  constructor
  · rintro ⟨⟨hdims, helements⟩, hbytes, hbatch⟩
    exact ⟨hdims, helements, hbytes, hbatch⟩
  · rintro ⟨hdims, helements, hbytes, hbatch⟩
    exact ⟨⟨hdims, helements⟩, hbytes, hbatch⟩

theorem IsSized.batchByteSize {spec : TensorSpec} {batch : Nat} (h : spec.IsSized batch) :
    spec.batchByteSize batch = .ok (spec.batchSize batch) := by
  have hverdict := spec.verdict_batchByteSize batch
  rw [firstFailure_eq_ok_iff.2 (sizeChecks_hold_iff.2 h)] at hverdict
  rcases verdict_eq_ok hverdict with ⟨size, hsize⟩
  rw [hsize, batchByteSize_eq_ok hsize]

theorem isSized_of_batchByteSize {spec : TensorSpec} {batch size : Nat}
    (h : spec.batchByteSize batch = .ok size) : spec.IsSized batch := by
  have hverdict := spec.verdict_batchByteSize batch
  rw [h] at hverdict
  exact sizeChecks_hold_iff.1 (firstFailure_eq_ok_iff.1 hverdict.symm)

/-!
# What is reported
-/

theorem code_of_mem_dimChecks {tensor : String} {before dims : List Int} {failure : Failure}
    (h : (false, failure) ∈ dimChecks tensor before dims) :
    failure.code = .invalidArg ∨ -1 ∈ dims ∧ failure = .variableDimension tensor := by
  induction dims generalizing before with
  | nil => cases h
  | cons dim rest ih =>
      unfold dimChecks at h
      rcases List.mem_cons.1 h with hvaries | h
      · rcases Prod.mk.inj hvaries with ⟨hfails, rfl⟩
        have hdim : dim = -1 := by simpa using hfails.symm
        rw [hdim]
        exact .inr ⟨List.mem_cons_self, rfl⟩
      · rcases List.mem_cons.1 h with hnegative | h
        · cases (Prod.mk.inj hnegative).2
          exact .inl rfl
        · rcases List.mem_cons.1 h with hlarge | h
          · cases (Prod.mk.inj hlarge).2
            exact .inl rfl
          · rcases ih h with hcode | ⟨hdims, hfailure⟩
            · exact .inl hcode
            · exact .inr ⟨List.mem_cons_of_mem _ hdims, hfailure⟩

/-- Whatever is wrong with a size is an invalid argument, unless a dimension varies. -/
theorem code_of_mem_sizeChecks {spec : TensorSpec} {batch : Nat} {failure : Failure}
    (h : (false, failure) ∈ spec.sizeChecks batch) :
    failure.code = .invalidArg ∨ -1 ∈ spec.dims ∧ failure = .variableDimension spec.name := by
  unfold sizeChecks at h
  rcases List.mem_append.1 h with hdims | hproducts
  · exact code_of_mem_dimChecks hdims
  · left
    rcases List.mem_cons.1 hproducts with hbytes | hproducts
    · cases (Prod.mk.inj hbytes).2
      rfl
    · cases (Prod.mk.inj (List.mem_singleton.1 hproducts)).2
      rfl

end TensorSpec

end InferenceEngine
