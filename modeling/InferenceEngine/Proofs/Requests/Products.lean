import InferenceEngine.Proofs.Requests.Sizes
import Mathlib.Data.List.TakeWhile

/-!
# Sizes and products

The product of its factors would tell the size of a batch, whatever their order: a dimension that
varies is unsupported, and else the product is the size if it fits into a word.  The dimensions
are multiplied in their order though, and the first product that does not fit ends it.  A
dimension that varies or is zero does not help against this unless it comes before.
-/

namespace InferenceEngine

namespace TensorSpec

def outcome (spec : TensorSpec) (batch : Nat) : Except FailureCode Nat :=
  (spec.batchByteSize batch).mapError Failure.code

/-- The same as the dimensions and the product of all factors tell it. -/
def productOutcome (spec : TensorSpec) (batch : Nat) : Except FailureCode Nat :=
  if -1 ∈ spec.dims then .error .unsupported
  else if spec.batchSize batch < Text.wordBound then .ok (spec.batchSize batch)
  else .error .invalidArg

/-- The dimensions before the first one that is not positive. -/
def leading (spec : TensorSpec) : List Int := spec.dims.takeWhile (0 < ·)

/-- Whether the elements can be counted as far as it matters: up to the first dimension that is not
positive, if there is one. -/
def IsCountable (spec : TensorSpec) : Prop :=
  volume spec.leading < Text.wordBound ∨ spec.leading = spec.dims

instance (spec : TensorSpec) : Decidable spec.IsCountable :=
  inferInstanceAs (Decidable (_ ∨ _))

/-!
# Products in any order

What the product tells does not depend on the order of the dimensions.
-/

theorem volume_perm {dims others : List Int} (h : dims.Perm others) :
    volume dims = volume others := by
  induction h with
  | nil => rfl
  | cons dim _ ih => exact congrArg (dim.toNat * ·) ih
  | swap first second rest =>
      change second.toNat * (first.toNat * volume rest) = first.toNat * (second.toNat * volume rest)
      exact Nat.mul_left_comm _ _ _
  | trans _ _ ihfirst ihsecond => exact ihfirst.trans ihsecond

theorem volume_pos {dims : List Int} (h : forall dim, dim ∈ dims -> 0 < dim) : 1 ≤ volume dims := by
  induction dims with
  | nil => exact Nat.le_refl 1
  | cons dim rest ih =>
      have hdim : 1 ≤ dim.toNat := Int.lt_toNat.2 (h dim List.mem_cons_self)
      have hrest : 1 ≤ volume rest := ih fun other hother => h other (List.mem_cons_of_mem _ hother)
      exact Nat.mul_pos hdim hrest

theorem volume_eq_zero {dims : List Int} (h : 0 ∈ dims) : volume dims = 0 := by
  rcases List.append_of_mem h with ⟨first, rest, rfl⟩
  have hrest : volume (0 :: rest) = 0 := Nat.zero_mul (volume rest)
  rw [volume_append, hrest, Nat.mul_zero]

theorem volume_le_append {first rest : List Int} (h : forall dim, dim ∈ rest -> 0 < dim) :
    volume first ≤ volume (first ++ rest) := by
  rw [volume_append]
  exact Nat.le_mul_of_pos_right _ (volume_pos h)

theorem batchSize_of_zero (spec : TensorSpec) (batch : Nat) (h : 0 ∈ spec.dims) :
    spec.batchSize batch = 0 := by
  unfold batchSize
  rw [volume_eq_zero h, Nat.zero_mul, Nat.zero_mul]

theorem productOutcome_perm {spec other : TensorSpec} {batch : Nat}
    (htype : other.dataType = spec.dataType) (hdims : other.dims.Perm spec.dims) :
    other.productOutcome batch = spec.productOutcome batch := by
  have hsize : other.batchSize batch = spec.batchSize batch := by
    unfold batchSize
    rw [volume_perm hdims, htype]
  unfold productOutcome
  rw [hsize]
  simp only [hdims.mem_iff]

theorem volume_le_batchSize (spec : TensorSpec) {batch : Nat} (hbatch : 1 ≤ batch) :
    volume spec.dims ≤ volume spec.dims * spec.dataType.byteSize ∧
      volume spec.dims * spec.dataType.byteSize ≤ spec.batchSize batch := by
  have helement : 0 < spec.dataType.byteSize := by cases spec.dataType <;> decide
  exact ⟨Nat.le_mul_of_pos_right _ helement, Nat.le_mul_of_pos_right _ hbatch⟩

/-!
# Up to the first dimension that is not positive

Positive dimensions are counted through or not at all: the products only grow.
-/

theorem leading_positive (spec : TensorSpec) : forall dim, dim ∈ spec.leading -> 0 < dim := by
  intro dim hdim
  have hholds := List.mem_takeWhile_imp (p := fun dim : Int => decide (0 < dim)) hdim
  exact of_decide_eq_true hholds

theorem leading_cases {spec : TensorSpec} (h : forall dim, dim ∈ spec.dims -> -1 ≤ dim) :
    spec.dims = spec.leading ∨
      exists (dim : Int) (rest : List Int), spec.dims = spec.leading ++ dim :: rest ∧
        (dim = -1 ∨ dim = 0) := by
  have hsplit : spec.leading ++ spec.dims.dropWhile (0 < ·) = spec.dims :=
    List.takeWhile_append_dropWhile
  cases hdrop : spec.dims.dropWhile (0 < ·) with
  | nil =>
      left
      rw [hdrop, List.append_nil] at hsplit
      exact hsplit.symm
  | cons dim rest =>
      right
      rw [hdrop] at hsplit
      refine ⟨dim, rest, hsplit.symm, ?_⟩
      have hstops := List.head?_dropWhile_not (fun dim : Int => decide (0 < dim)) spec.dims
      rw [hdrop] at hstops
      have hnot : ¬ 0 < dim := of_decide_eq_false (by simpa using hstops)
      have hdim : -1 ≤ dim := h dim (hsplit ▸ List.mem_append_right _ List.mem_cons_self)
      omega

theorem elements_of_product {tensor : String} {count n : Nat} {dim : Int} {rest : List Int}
    (hdim : 0 ≤ dim) (h : product? count dim.toNat = some n) :
    elements tensor count (dim :: rest) = elements tensor n rest := by
  rw [elements, if_neg (by omega), if_neg (by omega), h]

theorem elements_of_overflow {tensor : String} {count : Nat} {dim : Int} {rest : List Int}
    (hdim : 0 ≤ dim) (h : product? count dim.toNat = none) :
    elements tensor count (dim :: rest) = .error (.tensorTooLarge tensor) := by
  rw [elements, if_neg (by omega), if_neg (by omega), h]

theorem elements_append {tensor : String} (before : List Int) {first rest : List Int}
    (hbefore : volume before < Text.wordBound) (hfirst : forall dim, dim ∈ first -> 0 < dim) :
    elements tensor (volume before) (first ++ rest) =
      if volume (before ++ first) < Text.wordBound then
        elements tensor (volume (before ++ first)) rest
      else .error (.tensorTooLarge tensor) := by
  induction first generalizing before with
  | nil => rw [List.append_nil, List.nil_append, if_pos hbefore]
  | cons dim more ih =>
      have hdim : 0 < dim := hfirst dim List.mem_cons_self
      have hmore : forall other, other ∈ more -> 0 < other := fun other hother =>
        hfirst other (List.mem_cons_of_mem _ hother)
      have hsame : before ++ dim :: more = before ++ [dim] ++ more := by
        rw [List.append_assoc, List.singleton_append]
      rw [hsame, List.cons_append]
      cases hproduct : product? (volume before) dim.toNat with
      | none =>
          have hlarge : ¬ volume (before ++ [dim]) < Text.wordBound := by
            rw [volume_concat]
            exact product?_eq_none hproduct
          have hgrows : volume (before ++ [dim]) ≤ volume (before ++ [dim] ++ more) :=
            volume_le_append hmore
          rw [elements_of_overflow (Int.le_of_lt hdim) hproduct,
            if_neg fun hfits => hlarge (Nat.lt_of_le_of_lt hgrows hfits)]
      | some n =>
          rw [elements_of_product (Int.le_of_lt hdim) hproduct]
          rcases product?_eq_some hproduct with ⟨rfl, hfits⟩
          rw [← volume_concat] at hfits ⊢
          exact ih _ hfits hmore

theorem product?_zero (factor : Nat) : product? 0 factor = some 0 := by
  unfold product?
  rw [Nat.zero_mul]
  rfl

theorem elements_zero {tensor : String} {dims : List Int}
    (h : forall dim, dim ∈ dims -> -1 ≤ dim) :
    elements tensor 0 dims =
      if -1 ∈ dims then .error (.variableDimension tensor) else .ok 0 := by
  induction dims with
  | nil => rfl
  | cons dim rest ih =>
      have hdim : -1 ≤ dim := h dim List.mem_cons_self
      have hrest := ih fun other hother => h other (List.mem_cons_of_mem _ hother)
      by_cases hvaries : dim = -1
      · rw [elements, if_pos hvaries, if_pos (hvaries ▸ List.mem_cons_self)]
      · have hmem : -1 ∈ dim :: rest ↔ -1 ∈ rest := by
          rw [List.mem_cons]
          exact or_iff_right fun hsame => hvaries hsame.symm
        rw [elements_of_product (by omega) (product?_zero _)]
        simpa only [hmem] using hrest

theorem elements_of_leading {spec : TensorSpec} (h : forall dim, dim ∈ spec.dims -> -1 ≤ dim) :
    elements spec.name 1 spec.dims =
      if volume spec.leading < Text.wordBound then
        if -1 ∈ spec.dims then .error (.variableDimension spec.name) else .ok (volume spec.dims)
      else .error (.tensorTooLarge spec.name) := by
  have hcount (rest : List Int) : elements spec.name 1 (spec.leading ++ rest) =
      if volume spec.leading < Text.wordBound then
        elements spec.name (volume spec.leading) rest
      else .error (.tensorTooLarge spec.name) :=
    elements_append [] (by decide) spec.leading_positive
  have hpositive : -1 ∉ spec.leading := fun hvaries =>
    absurd (spec.leading_positive _ hvaries) (by decide)
  rcases leading_cases h with hall | ⟨dim, rest, hdims, rfl | rfl⟩
  · have hnil := hcount []
    rw [List.append_nil, ← hall] at hnil
    rw [← hall] at hpositive ⊢
    rw [hnil, if_neg hpositive]
    rfl
  · have hmem : -1 ∈ spec.dims := hdims ▸ List.mem_append_right _ List.mem_cons_self
    rw [if_pos hmem]
    exact hdims ▸ hcount (-1 :: rest)
  · have hzero : 0 ∈ spec.dims := hdims ▸ List.mem_append_right _ List.mem_cons_self
    have hrest : forall dim, dim ∈ rest -> -1 ≤ dim := by
      intro dim hdim
      exact h dim (hdims ▸ List.mem_append_right _ (List.mem_cons_of_mem _ hdim))
    have hmem : -1 ∈ spec.dims ↔ -1 ∈ rest := by
      rw [hdims, List.mem_append, List.mem_cons]
      simp [hpositive]
    have hstep : elements spec.name (volume spec.leading) (0 :: rest) =
        elements spec.name 0 rest := elements_of_product (Int.le_refl 0) rfl
    rw [volume_eq_zero hzero]
    simp only [hmem]
    rw [← elements_zero hrest, ← hstep, ← hcount, ← hdims]

/-!
# What the size tells

Where the elements can be counted, the product tells the size of a batch.
-/

theorem batchByteSize_of_varies {spec : TensorSpec} {batch : Nat}
    (h : forall dim, dim ∈ spec.dims -> -1 ≤ dim) (hfits : volume spec.leading < Text.wordBound)
    (hvaries : -1 ∈ spec.dims) :
    spec.batchByteSize batch = .error (.variableDimension spec.name) := by
  unfold batchByteSize instanceByteSize
  rw [elements_of_leading h, if_pos hfits, if_pos hvaries]
  rfl

theorem batchByteSize_of_large {spec : TensorSpec} {batch : Nat}
    (h : forall dim, dim ∈ spec.dims -> -1 ≤ dim)
    (hlarge : ¬ volume spec.leading < Text.wordBound) :
    spec.batchByteSize batch = .error (.tensorTooLarge spec.name) := by
  unfold batchByteSize instanceByteSize
  rw [elements_of_leading h, if_neg hlarge]
  rfl

/-- A batch that fits has a size, since none of its factors but a dimension is zero. -/
theorem batchByteSize_of_fits {spec : TensorSpec} {batch : Nat}
    (h : forall dim, dim ∈ spec.dims -> -1 ≤ dim) (hbatch : 1 ≤ batch)
    (hleading : volume spec.leading < Text.wordBound) (hvaries : -1 ∉ spec.dims)
    (hfits : spec.batchSize batch < Text.wordBound) :
    spec.batchByteSize batch = .ok (spec.batchSize batch) := by
  rcases spec.volume_le_batchSize hbatch with ⟨_, hinstance⟩
  have hcount : elements spec.name 1 spec.dims = .ok (volume spec.dims) := by
    rw [elements_of_leading h, if_pos hleading, if_neg hvaries]
  have hverdict := verdict_elements spec.name [] spec.dims
  have hnone : volume [] = 1 := rfl
  rw [hnone, hcount] at hverdict
  rcases (dimChecks_hold_iff (by decide)).1 (firstFailure_eq_ok_iff.1 hverdict.symm) with
    ⟨hdims, helements⟩
  exact IsSized.batchByteSize ⟨hdims, helements, Nat.lt_of_le_of_lt hinstance hfits, hfits⟩

theorem IsCountable.outcome {spec : TensorSpec} {batch : Nat} (hcountable : spec.IsCountable)
    (h : forall dim, dim ∈ spec.dims -> -1 ≤ dim) (hbatch : 1 ≤ batch) :
    spec.outcome batch = spec.productOutcome batch := by
  rcases spec.volume_le_batchSize hbatch with ⟨hbytes, hinstance⟩
  unfold TensorSpec.outcome productOutcome
  by_cases hleading : volume spec.leading < Text.wordBound
  · by_cases hvaries : -1 ∈ spec.dims
    · rw [if_pos hvaries, batchByteSize_of_varies h hleading hvaries]
      rfl
    · rw [if_neg hvaries]
      by_cases hfits : spec.batchSize batch < Text.wordBound
      · rw [if_pos hfits, batchByteSize_of_fits h hbatch hleading hvaries hfits]
        rfl
      · rw [if_neg hfits]
        cases hsize : spec.batchByteSize batch with
        | ok size => exact absurd (isSized_of_batchByteSize hsize).batch hfits
        | error failure =>
            have hverdict := spec.verdict_batchByteSize batch
            rw [hsize] at hverdict
            rcases code_of_mem_sizeChecks (mem_of_firstFailure hverdict.symm) with hcode | hmem
            · exact congrArg Except.error hcode
            · exact absurd hmem.1 hvaries
  · have hall : spec.leading = spec.dims := hcountable.resolve_left hleading
    have hvaries : -1 ∉ spec.dims := fun hvaries =>
      absurd (spec.leading_positive _ (hall ▸ hvaries)) (by decide)
    have hlarge : ¬ spec.batchSize batch < Text.wordBound := by
      rw [hall] at hleading
      omega
    rw [if_neg hvaries, if_neg hlarge, batchByteSize_of_large h hleading]
    rfl

theorem outcome_iff_countable {spec : TensorSpec} {batch : Nat}
    (h : forall dim, dim ∈ spec.dims -> -1 ≤ dim) (hbatch : 1 ≤ batch) :
    spec.outcome batch = spec.productOutcome batch ↔ spec.IsCountable := by
  constructor
  · intro hsame
    by_contra huncountable
    rcases not_or.1 huncountable with ⟨hlarge, hpart⟩
    have houtcome : spec.outcome batch = .error .invalidArg :=
      congrArg (Except.mapError Failure.code) (batchByteSize_of_large h hlarge)
    rw [houtcome] at hsame
    unfold productOutcome at hsame
    rcases leading_cases h with hall | ⟨dim, rest, hdims, rfl | rfl⟩
    · exact hpart hall.symm
    · have hvaries : -1 ∈ spec.dims := hdims ▸ List.mem_append_right _ List.mem_cons_self
      rw [if_pos hvaries] at hsame
      cases hsame
    · have hzero := spec.batchSize_of_zero batch
        (hdims ▸ List.mem_append_right _ List.mem_cons_self)
      rw [hzero] at hsame
      split at hsame
      · cases hsame
      · cases hsame
  · intro hcountable
    exact hcountable.outcome h hbatch

/-!
# The order of the dimensions
-/

/-- However the dimensions are ordered, those that lead are among the positive ones. -/
theorem volume_leading_le (spec : TensorSpec) :
    volume spec.leading ≤ volume (spec.dims.filter (0 < ·)) := by
  have hsplit : spec.leading ++ spec.dims.dropWhile (0 < ·) = spec.dims :=
    List.takeWhile_append_dropWhile
  have hleading : spec.leading.filter (0 < ·) = spec.leading :=
    List.filter_eq_self.2 fun dim hdim => decide_eq_true (spec.leading_positive dim hdim)
  conv_rhs => rw [← hsplit, List.filter_append, hleading]
  exact volume_le_append fun dim hdim => of_decide_eq_true (List.mem_filter.1 hdim).2

theorem leading_of_stop {spec : TensorSpec} {first rest : List Int} {dim : Int}
    (hdims : spec.dims = first ++ dim :: rest) (hfirst : forall d, d ∈ first -> 0 < d)
    (hdim : ¬ 0 < dim) : spec.leading = first := by
  unfold leading
  rw [hdims, List.takeWhile_append_of_pos fun d hd => decide_eq_true (hfirst d hd),
    List.takeWhile_cons_of_neg (by simpa using hdim), List.append_nil]

theorem not_countable_of_stop {spec : TensorSpec} {first rest : List Int} {dim : Int}
    (hdims : spec.dims = first ++ dim :: rest) (hfirst : forall d, d ∈ first -> 0 < d)
    (hdim : ¬ 0 < dim) (hlarge : ¬ volume first < Text.wordBound) : ¬ spec.IsCountable := by
  unfold IsCountable
  rw [leading_of_stop hdims hfirst hdim, hdims]
  rintro (hfits | hall)
  · exact hlarge hfits
  · exact absurd (List.self_eq_append_right.1 hall) (List.cons_ne_nil _ _)

theorem countable_of_stop_first {spec : TensorSpec} {rest : List Int} {dim : Int}
    (hdims : spec.dims = dim :: rest) (hdim : ¬ 0 < dim) : spec.IsCountable := by
  have hleading : spec.leading = [] :=
    leading_of_stop hdims (fun d hd => absurd hd List.not_mem_nil) hdim
  left
  rw [hleading]
  decide

/-- The positive dimensions first and the others behind them, split at the first of the others. -/
theorem positive_first_cases (spec : TensorSpec) :
    (forall dim, dim ∈ spec.dims -> 0 < dim) ∨
      exists (dim : Int) (rest : List Int), ¬ 0 < dim ∧
        (spec.dims.filter (0 < ·) ++ dim :: rest).Perm spec.dims := by
  have hsplit := List.filter_append_perm (fun dim : Int => decide (0 < dim)) spec.dims
  cases hrest : spec.dims.filter (fun dim => !decide (0 < dim)) with
  | nil =>
      left
      intro dim hdim
      simpa using List.filter_eq_nil_iff.1 hrest dim hdim
  | cons dim rest =>
      right
      have hmem : dim ∈ spec.dims.filter (fun dim => !decide (0 < dim)) :=
        hrest ▸ List.mem_cons_self
      rw [hrest] at hsplit
      exact ⟨dim, rest, by simpa using (List.mem_filter.1 hmem).2, hsplit⟩

/-- The order does not matter if all positive dimensions can be multiplied, or there are no
others.  Otherwise it does: the positive ones may come first or last. -/
theorem outcome_perm_iff {spec : TensorSpec} {batch : Nat}
    (h : forall dim, dim ∈ spec.dims -> -1 ≤ dim) (hbatch : 1 ≤ batch) :
    (forall other : TensorSpec, other.dataType = spec.dataType -> other.dims.Perm spec.dims ->
        other.outcome batch = spec.outcome batch) ↔
      volume (spec.dims.filter (0 < ·)) < Text.wordBound ∨
        forall dim, dim ∈ spec.dims -> 0 < dim := by
  have hbounds (other : TensorSpec) (hother : other.dims.Perm spec.dims) :
      forall dim, dim ∈ other.dims -> -1 ≤ dim := fun d hd => h d (hother.mem_iff.1 hd)
  constructor
  · intro hsame
    rcases spec.positive_first_cases with hpositive | ⟨dim, rest, hdim, hperm⟩
    · exact .inr hpositive
    · left
      by_contra hlarge
      have hbehind : (dim :: rest ++ spec.dims.filter (0 < ·)).Perm spec.dims :=
        List.perm_append_comm.trans hperm
      have hlast : spec.outcome batch = spec.productOutcome batch := by
        let last := { spec with dims := dim :: rest ++ spec.dims.filter (0 < ·) }
        have hcountable : last.IsCountable := countable_of_stop_first rfl hdim
        rw [← hsame last rfl hbehind, hcountable.outcome (hbounds last hbehind) hbatch]
        exact productOutcome_perm rfl hbehind
      let first := { spec with dims := spec.dims.filter (0 < ·) ++ dim :: rest }
      have hfirst : first.IsCountable := by
        have horder : first.productOutcome batch = spec.productOutcome batch :=
          productOutcome_perm rfl hperm
        rw [← outcome_iff_countable (hbounds first hperm) hbatch, hsame first rfl hperm, hlast,
          horder]
      exact not_countable_of_stop rfl
        (fun d hd => of_decide_eq_true (List.mem_filter.1 hd).2) hdim hlarge hfirst
  · intro hcondition other htype hperm
    have hcountable (order : TensorSpec) (horder : order.dims.Perm spec.dims) :
        order.IsCountable := by
      rcases hcondition with hfits | hpositive
      · left
        rw [← volume_perm (horder.filter _)] at hfits
        exact Nat.lt_of_le_of_lt order.volume_leading_le hfits
      · right
        exact List.takeWhile_eq_self_iff.2 fun dim hdim =>
          decide_eq_true (hpositive dim (horder.mem_iff.1 hdim))
    rw [(hcountable other hperm).outcome (hbounds other hperm) hbatch,
      (hcountable spec (List.Perm.refl _)).outcome h hbatch, productOutcome_perm htype hperm]

/-!
# When the product tells the size
-/

/-- The product of its factors tells the size of a batch exactly if the dimensions before the
first one that is not positive can be multiplied, or there is no such dimension; and otherwise the
tensor is too large, whatever comes after them.  The order of the dimensions is of no importance
exactly if all positive ones can be multiplied, or there are no others. -/
theorem product_tells_size_iff {spec : TensorSpec} {batch : Nat}
    (hdims : forall dim, dim ∈ spec.dims -> -1 ≤ dim) (hbatch : 1 ≤ batch) :
    (spec.outcome batch = spec.productOutcome batch ↔ spec.IsCountable) ∧
    (¬ spec.IsCountable -> spec.batchByteSize batch = .error (.tensorTooLarge spec.name)) ∧
    (0 ∈ spec.dims -> -1 ∉ spec.dims -> (spec.outcome batch = .ok 0 ↔ spec.IsCountable)) ∧
    ((forall other : TensorSpec, other.dataType = spec.dataType -> other.dims.Perm spec.dims ->
        other.outcome batch = spec.outcome batch) ↔
      volume (spec.dims.filter (0 < ·)) < Text.wordBound ∨
        forall dim, dim ∈ spec.dims -> 0 < dim) := by
  refine ⟨outcome_iff_countable hdims hbatch, ?_, ?_, outcome_perm_iff hdims hbatch⟩
  · intro huncountable
    exact batchByteSize_of_large hdims (not_or.1 huncountable).1
  · intro hzero hvaries
    have htold : spec.productOutcome batch = .ok 0 := by
      unfold productOutcome
      rw [if_neg hvaries, spec.batchSize_of_zero batch hzero]
      rfl
    rw [← htold]
    exact outcome_iff_countable hdims hbatch

theorem zero_first_tells_size :
    (forall dim, dim ∈ [0, 4294967296, 4294967296] -> (-1 : Int) ≤ dim) ∧
    outcome ⟨"t", .uint8, [0, 4294967296, 4294967296]⟩ 1 = .ok 0 ∧
    ¬ forall other : TensorSpec, other.dataType = .uint8 ->
      other.dims.Perm [0, 4294967296, 4294967296] -> other.outcome 1 = .ok 0 := by
  have hdims : forall dim, dim ∈ [0, 4294967296, 4294967296] -> (-1 : Int) ≤ dim := by decide
  rcases @product_tells_size_iff ⟨"t", .uint8, [0, 4294967296, 4294967296]⟩ 1 hdims (by decide) with
    ⟨_, _, hzero, horder⟩
  have hsize := (hzero (by decide) (by decide)).2 (by decide)
  refine ⟨hdims, hsize, ?_⟩
  intro hsame
  rw [hsize] at horder
  exact absurd (horder.1 hsame) (by decide)

/-- The dimension that varies comes too late to be noticed, and so does the one that is zero. -/
theorem product_hidden_by_large_prefix :
    outcome ⟨"t", .uint8, [4294967296, 4294967296, -1]⟩ 1 = .error .invalidArg ∧
    productOutcome ⟨"t", .uint8, [4294967296, 4294967296, -1]⟩ 1 = .error .unsupported ∧
    outcome ⟨"t", .uint8, [4294967296, 4294967296, 0]⟩ 1 = .error .invalidArg ∧
    productOutcome ⟨"t", .uint8, [4294967296, 4294967296, 0]⟩ 1 = .ok 0 ∧
    ¬ forall (spec : TensorSpec) (batch : Nat), (forall dim, dim ∈ spec.dims -> -1 ≤ dim) ->
      1 ≤ batch -> spec.outcome batch = spec.productOutcome batch := by
  refine ⟨rfl, rfl, rfl, rfl, ?_⟩
  intro hall
  have hsame := hall ⟨"t", .uint8, [4294967296, 4294967296, -1]⟩ 1 (by decide) (by decide)
  cases hsame

end TensorSpec

end InferenceEngine
