import EvmZig.Transaction.Types

/-!
# The blob base fee (`src/transaction/blob.zig`)

`fakeExponential` sums the truncated terms of the Taylor series of an
exponential, each from the last one, in `u256`.
-/

set_option autoImplicit false

namespace EvmZig.Transaction

open Zig

/-! ## The code

`.fail ()` is `null`. -/

/-- `orelse return null`. -/
def orNull {α : Type} : Option α → Checked Unit α
  | some value => .ok value
  | none => .fail ()

/-- The loop of `fakeExponential`. -/
def fakeExponentialFrom (numerator denominator : Nat) (i output numeratorAccum : Nat) :
    Checked Unit Nat :=
  if _running : numeratorAccum > 0 then
    match addChecked 256 output numeratorAccum with
    | none => .fail ()
    | some output =>
        match mulChecked 256 numeratorAccum numerator, mulChecked 256 denominator i with
        | some nextNumerator, some nextDenominator =>
            if nextDenominator = 0 then .illegal
            else if _next : i + 1 < 2 ^ 256 then
              fakeExponentialFrom numerator denominator (i + 1) output
                (nextNumerator / nextDenominator)
            else .illegal
        | _, _ => .fail ()
  else .ok (output / denominator)
termination_by 2 ^ 256 - i

def fakeExponential (factor numerator denominator : Nat) : Checked Unit Nat :=
  if denominator = 0 then .fail ()
  else
    match mulChecked 256 factor denominator with
    | none => .fail ()
    | some numeratorAccum => fakeExponentialFrom numerator denominator 1 0 numeratorAccum

/-- The fields of the blob schedule that the fee and the excess read. -/
structure BlobFeeSchedule extends BlobSchedule where
  minBaseFee : Nat
  executionBaseCost : Nat
  reservePriceActive : Bool

structure ExcessBlobGasInput where
  parentExcessBlobGas : Nat
  parentBlobGasUsed : Nat
  parentBaseFeePerGas : Nat

/-- `left - right`, trapping below zero. -/
def checkedSub (left right : Nat) : Checked Unit Nat :=
  if right ≤ left then .ok (left - right) else .illegal

/-- `@divFloor`, trapping on a zero divisor. -/
def divFloor (left right : Nat) : Checked Unit Nat :=
  if right = 0 then .illegal else .ok (left / right)

namespace BlobFeeSchedule

def blobBaseFeeForSchedule (self : BlobFeeSchedule) (excessBlobGas : Nat) : Checked Unit Nat :=
  fakeExponential self.minBaseFee excessBlobGas self.baseFeeUpdateFraction

def calcExcessBlobGasForSchedule (self : BlobFeeSchedule) (input : ExcessBlobGasInput) :
    Checked Unit Nat :=
  if self.max = 0 ∨ self.max < self.target then .fail () else do
    let targetBlobGas ← orNull (mulChecked 256 self.gasPerBlob self.target)
    let totalBlobGas ← orNull
      (addChecked 256 input.parentExcessBlobGas input.parentBlobGasUsed)
    if totalBlobGas < targetBlobGas then .ok 0 else do
      let reserved : Bool ←
        if self.reservePriceActive then do
          let parentBlobBaseFee ← self.blobBaseFeeForSchedule input.parentExcessBlobGas
          let executionReservePrice ← orNull
            (mulChecked 256 self.executionBaseCost input.parentBaseFeePerGas)
          let blobPrice ← orNull (mulChecked 256 self.gasPerBlob parentBlobBaseFee)
          .ok (decide (executionReservePrice > blobPrice))
        else .ok false
      if reserved then do
        let headroom ← checkedSub self.max self.target
        let scaledUsed ← orNull (mulChecked 256 input.parentBlobGasUsed headroom)
        let adjustment ← divFloor scaledUsed self.max
        orNull (addChecked 256 input.parentExcessBlobGas adjustment)
      else checkedSub totalBlobGas targetBlobGas

end BlobFeeSchedule

/-! ## The truncated Taylor sum -/

section Terms

/-- The terms of EIP-4844, over unbounded integers. -/
def term (factor numerator denominator : Nat) : Nat → Nat
  | 0 => factor * denominator
  | index + 1 => term factor numerator denominator index * numerator / (denominator * (index + 1))

def partialSum (factor numerator denominator : Nat) : Nat → Nat
  | 0 => 0
  | count + 1 => partialSum factor numerator denominator count +
      term factor numerator denominator count

/-- The sum of all terms up to the first that is zero, over the denominator. -/
def IsTaylorSum (factor numerator denominator value : Nat) : Prop :=
  ∃ count, term factor numerator denominator count = 0 ∧
    value = partialSum factor numerator denominator count / denominator

/-- What the iteration of a term computes fits in 256 bits. -/
structure TermFits (factor numerator denominator index : Nat) : Prop where
  output : partialSum factor numerator denominator (index + 1) < 2 ^ 256
  numerator : term factor numerator denominator index * numerator < 2 ^ 256
  denominator : denominator * (index + 1) < 2 ^ 256

/-- All intermediate values fit in 256 bits. -/
structure Representable (factor numerator denominator : Nat) : Prop where
  start : factor * denominator < 2 ^ 256
  terms : ∀ index, 0 < term factor numerator denominator index →
    TermFits factor numerator denominator index

variable {factor numerator denominator : Nat}

theorem term_zero_next {index : Nat} (zero : term factor numerator denominator index = 0) :
    term factor numerator denominator (index + 1) = 0 := by
  rw [term, zero, Nat.zero_mul, Nat.zero_div]

theorem term_zero_of_le {index later : Nat} (ordered : index ≤ later)
    (zero : term factor numerator denominator index = 0) :
    term factor numerator denominator later = 0 := by
  induction ordered with
  | refl => exact zero
  | step _ ih => exact term_zero_next ih

theorem term_pos_of_le {index later : Nat} (ordered : index ≤ later)
    (positive : 0 < term factor numerator denominator later) :
    0 < term factor numerator denominator index := by
  rw [Nat.pos_iff_ne_zero] at positive ⊢
  exact fun zero => positive (term_zero_of_le ordered zero)

theorem partialSum_stable {count later : Nat} (ordered : count ≤ later)
    (zero : term factor numerator denominator count = 0) :
    partialSum factor numerator denominator later =
      partialSum factor numerator denominator count := by
  induction ordered with
  | refl => rfl
  | step before ih => rw [partialSum, ih, term_zero_of_le before zero, Nat.add_zero]

/-- Once the index has passed the ratio, terms fall. -/
theorem term_falls {index : Nat} (nonzero : 0 < denominator) (past : numerator ≤ index) :
    term factor numerator denominator (index + 1) ≤ term factor numerator denominator index - 1 := by
  rw [term]
  cases held : term factor numerator denominator index with
  | zero => rw [Nat.zero_mul, Nat.zero_div]
  | succ size =>
      have wide : numerator < denominator * (index + 1) :=
        Nat.lt_of_lt_of_le (Nat.lt_succ_of_le past) (Nat.le_mul_of_pos_left _ nonzero)
      have scaled : (size + 1) * numerator < (size + 1) * (denominator * (index + 1)) :=
        Nat.mul_lt_mul_of_pos_left wide (Nat.succ_pos size)
      rw [Nat.add_sub_cancel]
      rw [Nat.mul_comm (size + 1) (denominator * _)] at scaled
      exact Nat.le_of_lt_succ (Nat.div_lt_of_lt_mul scaled)

theorem terms_end (nonzero : 0 < denominator) :
    ∃ count, term factor numerator denominator count = 0 := by
  have falls : ∀ more, term factor numerator denominator (numerator + more) ≤
      term factor numerator denominator numerator - more := by
    intro more
    induction more with
    | zero => exact Nat.le_refl _
    | succ more ih =>
        have step := @term_falls factor numerator denominator _ nonzero (Nat.le_add_right numerator more)
        rw [Nat.add_assoc] at step
        omega
  have last := falls (term factor numerator denominator numerator)
  exact ⟨_, Nat.le_zero.mp (Nat.sub_self _ ▸ last)⟩

theorem IsTaylorSum.unique {left right : Nat} (one : IsTaylorSum factor numerator denominator left)
    (other : IsTaylorSum factor numerator denominator right) : left = right := by
  obtain ⟨count, zero, rfl⟩ := one
  obtain ⟨later, zeroLater, rfl⟩ := other
  rcases Nat.le_total count later with ordered | ordered
  · rw [partialSum_stable ordered zero]
  · rw [partialSum_stable ordered zeroLater]

/-- As many terms as there are positive ones before: the sum bounds their number. -/
theorem count_le_partialSum {index : Nat} (positive : 0 < term factor numerator denominator index) :
    index + 1 ≤ partialSum factor numerator denominator (index + 1) := by
  induction index with
  | zero => exact Nat.le_trans positive (Nat.le_add_left _ _)
  | succ index ih =>
      have before := ih (term_pos_of_le (Nat.le_succ index) positive)
      rw [partialSum]
      omega

theorem term_add_count_le {index earlier : Nat} (ordered : earlier ≤ index)
    (positive : 0 < term factor numerator denominator index) :
    term factor numerator denominator earlier + index ≤
      partialSum factor numerator denominator (index + 1) := by
  induction index with
  | zero =>
      obtain rfl := Nat.le_zero.mp ordered
      rw [partialSum]
      omega
  | succ index ih =>
      have before := term_pos_of_le (Nat.le_succ index) positive
      rw [partialSum]
      rcases Nat.eq_or_lt_of_le ordered with rfl | within
      · have counted := count_le_partialSum before
        omega
      · have rest := ih (Nat.le_of_lt_succ within) before
        omega

/-- The loop variable does not overflow: so many positive terms would all be one, but after
two of these the third is zero. -/
theorem index_fits {index : Nat} (positive : 0 < term factor numerator denominator index)
    (fits : partialSum factor numerator denominator (index + 1) < 2 ^ 256) :
    index + 2 < 2 ^ 256 := by
  by_contra wide
  have one : ∀ earlier ≤ index, term factor numerator denominator earlier = 1 := by
    intro earlier ordered
    have counted := term_add_count_le ordered positive
    have some := term_pos_of_le ordered positive
    omega
  have first := one 0 (Nat.zero_le _)
  have second := one 1 (by omega)
  have third := one 2 (by omega)
  obtain rfl : denominator = 1 := Nat.eq_one_of_mul_eq_one_left first
  rw [term, first, Nat.one_mul, Nat.one_mul, Nat.zero_add, Nat.div_one] at second
  rw [term, one 1 (by omega), second] at third
  exact absurd third (by decide)

/-! ## The loop -/

/-- From a term on, the loop sums what is left, or meets a value that does not fit. -/
theorem fakeExponentialFrom_eq (nonzero : 0 < denominator) (more index : Nat)
    (ends : term factor numerator denominator (index + more) = 0) :
    (∃ value, fakeExponentialFrom numerator denominator (index + 1)
          (partialSum factor numerator denominator index) (term factor numerator denominator index) =
        .ok value ∧ IsTaylorSum factor numerator denominator value ∧
        ∀ later, index ≤ later → 0 < term factor numerator denominator later →
          TermFits factor numerator denominator later) ∨
      (fakeExponentialFrom numerator denominator (index + 1)
          (partialSum factor numerator denominator index) (term factor numerator denominator index) =
        .fail () ∧ ∃ later, index ≤ later ∧ 0 < term factor numerator denominator later ∧
          ¬TermFits factor numerator denominator later) := by
  induction more generalizing index with
  | zero =>
      rw [Nat.add_zero] at ends
      refine .inl ⟨partialSum factor numerator denominator index / denominator, ?_,
        ⟨index, ends, rfl⟩, fun later ordered positive => ?_⟩
      · rw [fakeExponentialFrom, ends, dif_neg (Nat.lt_irrefl 0)]
      · rw [term_zero_of_le ordered ends] at positive
        exact absurd positive (Nat.lt_irrefl 0)
  | succ more ih =>
      rw [fakeExponentialFrom]
      by_cases running : term factor numerator denominator index > 0
      · rw [dif_pos running]
        by_cases output : partialSum factor numerator denominator (index + 1) < 2 ^ 256
        swap
        · refine .inr ⟨?_, index, Nat.le_refl _, running, fun fits => output fits.output⟩
          rw [partialSum] at output
          rw [addChecked, if_neg output]
        have added : addChecked 256 (partialSum factor numerator denominator index)
            (term factor numerator denominator index) =
              some (partialSum factor numerator denominator (index + 1)) := if_pos output
        rw [added]
        dsimp only
        by_cases above : term factor numerator denominator index * numerator < 2 ^ 256
        swap
        · refine .inr ⟨?_, index, Nat.le_refl _, running, fun fits => above fits.numerator⟩
          rw [mulChecked, if_neg above]
        by_cases below : denominator * (index + 1) < 2 ^ 256
        swap
        · refine .inr ⟨?_, index, Nat.le_refl _, running, fun fits => below fits.denominator⟩
          rw [mulChecked_eq above, mulChecked, if_neg below]
        have positive : denominator * (index + 1) ≠ 0 := Nat.mul_ne_zero (by omega) (by omega)
        rw [mulChecked_eq above, mulChecked_eq below]
        dsimp only
        rw [if_neg positive, dif_pos (index_fits running output)]
        rcases ih (index + 1) (by rwa [Nat.add_right_comm]) with
          ⟨value, ran, sum, fits⟩ | ⟨ran, later, ordered, some, wide⟩
        · refine .inl ⟨value, ran, sum, fun later ordered some => ?_⟩
          rcases Nat.eq_or_lt_of_le ordered with rfl | after
          · exact ⟨output, above, below⟩
          · exact fits later after some
        · exact .inr ⟨ran, later, Nat.le_of_succ_le ordered, some, wide⟩
      · have zero : term factor numerator denominator index = 0 := by omega
        refine .inl ⟨_, dif_neg running, ⟨index, zero, rfl⟩, fun later ordered positive => ?_⟩
        rw [term_zero_of_le ordered zero] at positive
        exact absurd positive (Nat.lt_irrefl 0)

theorem fakeExponential_eq (nonzero : 0 < denominator) :
    (∃ value, fakeExponential factor numerator denominator = .ok value ∧
        IsTaylorSum factor numerator denominator value ∧
        Representable factor numerator denominator) ∨
      (fakeExponential factor numerator denominator = .fail () ∧
        ¬Representable factor numerator denominator) := by
  rw [fakeExponential, if_neg (Nat.ne_of_gt nonzero)]
  by_cases start : factor * denominator < 2 ^ 256
  · rw [mulChecked_eq start]
    obtain ⟨count, ends⟩ := @terms_end factor numerator denominator nonzero
    rcases fakeExponentialFrom_eq nonzero count 0 (by rwa [Nat.zero_add]) with
      ⟨value, ran, sum, fits⟩ | ⟨ran, later, -, positive, wide⟩
    · exact .inl ⟨value, ran, sum, start, fun index => fits index (Nat.zero_le _)⟩
    · exact .inr ⟨ran, fun representable => wide (representable.terms later positive)⟩
  · refine .inr ⟨?_, fun representable => start representable.start⟩
    rw [mulChecked, if_neg start]

/-! ## Monotony -/

variable {larger : Nat}

theorem term_mono (ordered : numerator ≤ larger) (index : Nat) :
    term factor numerator denominator index ≤ term factor larger denominator index := by
  induction index with
  | zero => exact Nat.le_refl _
  | succ index ih => exact Nat.div_le_div_right (Nat.mul_le_mul ih ordered)

theorem partialSum_mono (ordered : numerator ≤ larger) (count : Nat) :
    partialSum factor numerator denominator count ≤ partialSum factor larger denominator count := by
  induction count with
  | zero => exact Nat.le_refl _
  | succ count ih => exact Nat.add_le_add ih (term_mono ordered count)

theorem Representable.mono (ordered : numerator ≤ larger)
    (representable : Representable factor larger denominator) :
    Representable factor numerator denominator where
  start := representable.start
  terms index positive := by
    have fits := representable.terms index
      (Nat.lt_of_lt_of_le positive (term_mono ordered index))
    exact
      { output := Nat.lt_of_le_of_lt (partialSum_mono ordered _) fits.output
        numerator := Nat.lt_of_le_of_lt (Nat.mul_le_mul (term_mono ordered index) ordered)
          fits.numerator
        denominator := fits.denominator }

theorem IsTaylorSum.mono {value more : Nat} (ordered : numerator ≤ larger)
    (sum : IsTaylorSum factor numerator denominator value)
    (other : IsTaylorSum factor larger denominator more) : value ≤ more := by
  obtain ⟨count, zero, rfl⟩ := other
  have ends := Nat.le_zero.mp (zero ▸ term_mono ordered count)
  have same := sum.unique ⟨count, ends, rfl⟩
  rw [same]
  exact Nat.div_le_div_right (partialSum_mono ordered count)

end Terms

/-! ## Excess blob gas -/

namespace BlobFeeSchedule

/-- The rule over unbounded integers, given the parent's blob base fee. -/
def excessBlobGas (self : BlobFeeSchedule) (input : ExcessBlobGasInput) (fee : Nat) : Nat :=
  let total := input.parentExcessBlobGas + input.parentBlobGasUsed
  if total < self.gasPerBlob * self.target then 0
  else if self.reservePriceActive ∧
      self.gasPerBlob * fee < self.executionBaseCost * input.parentBaseFeePerGas then
    input.parentExcessBlobGas + input.parentBlobGasUsed * (self.max - self.target) / self.max
  else total - self.gasPerBlob * self.target

/-- The reserve price is compared. -/
def Compares (self : BlobFeeSchedule) (input : ExcessBlobGasInput) : Prop :=
  self.reservePriceActive = true ∧
    self.gasPerBlob * self.target ≤ input.parentExcessBlobGas + input.parentBlobGasUsed

/-- `fee` is the parent's blob base fee. -/
def IsBlobBaseFee (self : BlobFeeSchedule) (input : ExcessBlobGasInput) (fee : Nat) : Prop :=
  IsTaylorSum self.minBaseFee input.parentExcessBlobGas self.baseFeeUpdateFraction fee

/-- The schedule is usable, and what the rule computes fits in 256 bits. -/
structure ExcessFits (schedule : BlobFeeSchedule) (input : ExcessBlobGasInput) : Prop where
  active : schedule.max ≠ 0
  ordered : schedule.target ≤ schedule.max
  target : schedule.gasPerBlob * schedule.target < 2 ^ 256
  total : input.parentExcessBlobGas + input.parentBlobGasUsed < 2 ^ 256
  fraction : schedule.Compares input → schedule.baseFeeUpdateFraction ≠ 0
  fee : schedule.Compares input →
    Representable schedule.minBaseFee input.parentExcessBlobGas schedule.baseFeeUpdateFraction
  reserve : schedule.Compares input → schedule.executionBaseCost * input.parentBaseFeePerGas < 2 ^ 256
  price : schedule.Compares input → ∀ fee, schedule.IsBlobBaseFee input fee →
    schedule.gasPerBlob * fee < 2 ^ 256
  scaled : schedule.Compares input → ∀ fee, schedule.IsBlobBaseFee input fee →
    schedule.gasPerBlob * fee < schedule.executionBaseCost * input.parentBaseFeePerGas →
      input.parentBlobGasUsed * (schedule.max - schedule.target) < 2 ^ 256

variable {self : BlobFeeSchedule} {input : ExcessBlobGasInput}

theorem calcExcessBlobGas_eq :
    (∃ fee, (self.Compares input → self.IsBlobBaseFee input fee) ∧
        self.calcExcessBlobGasForSchedule input = .ok (self.excessBlobGas input fee) ∧
        self.ExcessFits input) ∨
      (self.calcExcessBlobGasForSchedule input = .fail () ∧ ¬self.ExcessFits input) := by
  rw [calcExcessBlobGasForSchedule]
  by_cases usable : self.max = 0 ∨ self.max < self.target
  · refine .inr ⟨if_pos usable, fun fits => ?_⟩
    rcases usable with inactive | inverted
    · exact fits.active inactive
    · exact Nat.not_le.mpr inverted fits.ordered
  rw [if_neg usable]
  obtain ⟨active, ordered⟩ := not_or.mp usable
  by_cases target : self.gasPerBlob * self.target < 2 ^ 256
  swap
  · refine .inr ⟨?_, fun fits => target fits.target⟩
    rw [mulChecked, if_neg target]
    rfl
  by_cases total : input.parentExcessBlobGas + input.parentBlobGasUsed < 2 ^ 256
  swap
  · refine .inr ⟨?_, fun fits => total fits.total⟩
    rw [mulChecked_eq target, addChecked, if_neg total]
    rfl
  have added : addChecked 256 input.parentExcessBlobGas input.parentBlobGasUsed =
      some (input.parentExcessBlobGas + input.parentBlobGasUsed) := if_pos total
  simp only [mulChecked_eq target, added, orNull, Checked.ok_bind]
  by_cases low : input.parentExcessBlobGas + input.parentBlobGasUsed < self.gasPerBlob * self.target
  · have idle : ¬self.Compares input := fun compares => Nat.not_le.mpr low compares.2
    refine .inl ⟨0, fun compares => absurd compares idle, ?_, ?_⟩
    · rw [excessBlobGas, if_pos low, if_pos low]
    · exact
        { active, ordered := Nat.le_of_not_lt ordered, target, total
          fraction := fun compares => absurd compares idle
          fee := fun compares => absurd compares idle
          reserve := fun compares => absurd compares idle
          price := fun compares => absurd compares idle
          scaled := fun compares => absurd compares idle }
  rw [if_neg low]
  have within := Nat.le_of_not_lt low
  by_cases reserved : self.reservePriceActive = true
  swap
  · have idle : ¬self.Compares input := fun compares => reserved compares.1
    refine .inl ⟨0, fun compares => absurd compares idle, ?_, ?_⟩
    · rw [if_neg reserved, if_neg Bool.false_ne_true, checkedSub, if_pos within,
        excessBlobGas, if_neg low, if_neg fun both => reserved both.1]
    · exact
        { active, ordered := Nat.le_of_not_lt ordered, target, total
          fraction := fun compares => absurd compares idle
          fee := fun compares => absurd compares idle
          reserve := fun compares => absurd compares idle
          price := fun compares => absurd compares idle
          scaled := fun compares => absurd compares idle }
  have compares : self.Compares input := ⟨reserved, within⟩
  rw [if_pos reserved, blobBaseFeeForSchedule]
  by_cases fraction : self.baseFeeUpdateFraction = 0
  · refine .inr ⟨?_, fun fits => fits.fraction compares fraction⟩
    rw [fakeExponential, if_pos fraction]
    rfl
  rcases @fakeExponential_eq self.minBaseFee input.parentExcessBlobGas self.baseFeeUpdateFraction
    (Nat.pos_of_ne_zero fraction) with ⟨fee, ran, sum, representable⟩ | ⟨ran, wide⟩
  swap
  · refine .inr ⟨?_, fun fits => wide (fits.fee compares)⟩
    rw [ran]
    rfl
  rw [ran, Checked.ok_bind]
  by_cases reserve : self.executionBaseCost * input.parentBaseFeePerGas < 2 ^ 256
  swap
  · refine .inr ⟨?_, fun fits => reserve (fits.reserve compares)⟩
    rw [mulChecked, if_neg reserve]
    rfl
  by_cases price : self.gasPerBlob * fee < 2 ^ 256
  swap
  · refine .inr ⟨?_, fun fits => price (fits.price compares fee sum)⟩
    rw [mulChecked_eq reserve, mulChecked, if_neg price]
    rfl
  rw [mulChecked_eq reserve, mulChecked_eq price]
  simp only [Checked.ok_bind]
  by_cases dear : self.gasPerBlob * fee < self.executionBaseCost * input.parentBaseFeePerGas
  · rw [decide_eq_true dear, if_pos rfl, checkedSub, if_pos (Nat.le_of_not_lt ordered)]
    by_cases scaled : input.parentBlobGasUsed * (self.max - self.target) < 2 ^ 256
    · have share : input.parentBlobGasUsed * (self.max - self.target) / self.max ≤
          input.parentBlobGasUsed :=
        Nat.div_le_of_le_mul (Nat.mul_comm self.max _ ▸
          Nat.mul_le_mul_left _ (Nat.sub_le self.max self.target))
      have sumFits : input.parentExcessBlobGas +
          input.parentBlobGasUsed * (self.max - self.target) / self.max < 2 ^ 256 :=
        Nat.lt_of_le_of_lt (Nat.add_le_add_left share _) total
      refine .inl ⟨fee, fun _ => sum, ?_, ?_⟩
      · simp only [mulChecked_eq scaled, Checked.ok_bind, divFloor, if_neg active]
        rw [addChecked, if_pos sumFits, excessBlobGas, if_neg low, if_pos ⟨reserved, dear⟩]
      · exact
          { active, ordered := Nat.le_of_not_lt ordered, target, total
            fraction := fun _ => fraction
            fee := fun _ => representable
            reserve := fun _ => reserve
            price := fun _ other found => found.unique sum ▸ price
            scaled := fun _ _ _ _ => scaled }
    · refine .inr ⟨?_, fun fits => scaled (fits.scaled compares fee sum dear)⟩
      rw [Checked.ok_bind, mulChecked, if_neg scaled]
      rfl
  · refine .inl ⟨fee, fun _ => sum, ?_, ?_⟩
    · rw [decide_eq_false dear, if_neg Bool.false_ne_true, checkedSub, if_pos within, excessBlobGas,
        if_neg low, if_neg fun both => dear both.2]
    · exact
        { active, ordered := Nat.le_of_not_lt ordered, target, total
          fraction := fun _ => fraction
          fee := fun _ => representable
          reserve := fun _ => reserve
          price := fun _ other found => found.unique sum ▸ price
          scaled := fun _ other found under => absurd (found.unique sum ▸ under) dear }

end BlobFeeSchedule

/-- `fakeExponential` returns the truncated Taylor sum, or null where a value does not fit in
256 bits; it grows with the numerator.  The excess is that of the unbounded rule, or null where
the schedule is unusable or a value does not fit. -/
theorem blobFee_exact :
    (∀ factor numerator denominator, denominator ≠ 0 →
      (Representable factor numerator denominator →
        ∃ value, fakeExponential factor numerator denominator = .ok value ∧
          IsTaylorSum factor numerator denominator value) ∧
      (¬Representable factor numerator denominator →
        fakeExponential factor numerator denominator = .fail ()) ∧
      ∀ smaller ≤ numerator, ∀ value, fakeExponential factor numerator denominator = .ok value →
        ∃ less ≤ value, fakeExponential factor smaller denominator = .ok less) ∧
    ∀ (self : BlobFeeSchedule) (input : ExcessBlobGasInput),
      (self.ExcessFits input → ∃ fee, (self.Compares input → self.IsBlobBaseFee input fee) ∧
        self.calcExcessBlobGasForSchedule input = .ok (self.excessBlobGas input fee)) ∧
      (¬self.ExcessFits input → self.calcExcessBlobGasForSchedule input = .fail ()) := by
  refine ⟨fun factor numerator denominator nonzero => ?_, fun self input => ?_⟩
  · have positive := Nat.pos_of_ne_zero nonzero
    rcases @fakeExponential_eq factor numerator denominator positive with
      ⟨value, ran, sum, representable⟩ | ⟨ran, wide⟩
    · refine ⟨fun _ => ⟨value, ran, sum⟩, fun wide => absurd representable wide, ?_⟩
      intro smaller ordered other returned
      obtain rfl : value = other := Checked.ok.inj (ran.symm.trans returned)
      rcases @fakeExponential_eq factor smaller denominator positive with
        ⟨less, ranLess, sumLess, -⟩ | ⟨-, wide⟩
      · exact ⟨less, sumLess.mono ordered sum, ranLess⟩
      · exact absurd (representable.mono ordered) wide
    · refine ⟨fun representable => absurd representable wide, fun _ => ran, ?_⟩
      intro smaller _ other returned
      cases ran.symm.trans returned
  · rcases @BlobFeeSchedule.calcExcessBlobGas_eq self input with ⟨fee, isFee, ran, fits⟩ | ⟨ran, wide⟩
    · exact ⟨fun _ => ⟨fee, isFee, ran⟩, fun wide => absurd fits wide⟩
    · exact ⟨fun fits => absurd fits wide, fun _ => ran⟩

theorem fakeExponential_half : fakeExponential 1 1 2 = .ok 1 := by
  rw [fakeExponential, if_neg (by decide)]
  change fakeExponentialFrom 1 2 1 0 2 = .ok 1
  rw [fakeExponentialFrom]
  change fakeExponentialFrom 1 2 2 2 1 = .ok 1
  rw [fakeExponentialFrom]
  change fakeExponentialFrom 1 2 3 3 0 = .ok 1
  rw [fakeExponentialFrom, dif_neg (by decide)]

/-- At one half the sum is one, and so at least what it is at zero. -/
theorem blobFee_exact_half : (2 : Nat) ≠ 0 ∧ ∃ less ≤ 1, fakeExponential 1 0 2 = .ok less :=
  ⟨by decide, (blobFee_exact.1 1 1 2 (by decide)).2.2 0 (by decide) 1 fakeExponential_half⟩

end EvmZig.Transaction
