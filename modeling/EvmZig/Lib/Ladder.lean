import Mathlib.Data.Nat.ModEq
import Mathlib.Data.Int.ModEq
import Mathlib.Tactic.LinearCombination
import Mathlib.Tactic.Ring
import Mathlib.Tactic.Zify

/-!
# Powers by squaring, and reduction without division

A ladder reads the bits of an exponent from the top.  Reduction after
Montgomery divides by the radix instead of the modulus.
-/

set_option autoImplicit false

namespace EvmZig.Lib

/-! ## Bits from the top -/

/-- The number with these bits, most significant first. -/
def bitsValue (bits : List Bool) : Nat := bits.foldl (fun value bit => 2 * value + bit.toNat) 0

theorem foldl_bits (start : Nat) (bits : List Bool) :
    bits.foldl (fun value bit => 2 * value + bit.toNat) start =
      start * 2 ^ bits.length + bitsValue bits := by
  induction bits generalizing start with
  | nil => rw [List.foldl_nil, List.length_nil, pow_zero, Nat.mul_one, bitsValue, List.foldl_nil,
      Nat.add_zero]
  | cons bit bits ih =>
      rw [bitsValue, List.foldl_cons, List.foldl_cons, ih, ih (2 * 0 + bit.toNat), List.length_cons,
        pow_succ]
      ring

/-! ## What a program gives -/

/-- A judgement of the programs of a monad that is closed under sequencing. -/
structure Judgement (m : Type → Type) [Monad m] where
  meets : {α : Type} → m α → (α → Prop) → Prop
  ret : ∀ {α : Type} {value : α} {holds : α → Prop}, holds value → meets (pure value) holds
  seq : ∀ {α β : Type} {first : m α} {next : α → m β} {holds : α → Prop} {after : β → Prop},
    meets first holds → (∀ value, holds value → meets (next value) after) →
      meets (first >>= next) after

/-- A program that gives a value, and the value meets the condition. -/
def total : Judgement Option where
  meets program holds := ∃ value, program = some value ∧ holds value
  ret held := ⟨_, rfl, held⟩
  seq := by
    rintro α β _ next holds after ⟨value, rfl, held⟩ continues
    exact continues value held

/-! ## A ladder -/

section Ladder

variable {m : Type → Type} [Monad m] {α : Type}

/-- The result so far; until the first set bit nothing is done. -/
structure Ladder (α : Type) where
  result : α
  started : Bool

def ladderBit (square multiply : α → m α) (load : m α) (state : Ladder α) (bit : Bool) :
    m (Ladder α) :=
  if state.started then do
    let squared ← square state.result
    if bit then do
      let multiplied ← multiply squared
      return ⟨multiplied, true⟩
    else return ⟨squared, true⟩
  else if bit then do
    let loaded ← load
    return ⟨loaded, true⟩
  else return state

variable {judgement : Judgement m} {square multiply : α → m α} {load : m α} {init : α}
  {represents : α → Nat → Prop}

/-- The result is the power of the bits read. -/
def Ladder.At (represents : α → Nat → Prop) (init : α) (exponent : Nat) (state : Ladder α) : Prop :=
  if state.started then represents state.result exponent else exponent = 0 ∧ state.result = init

theorem Ladder.At.power (holds : represents init 0) {exponent : Nat} {state : Ladder α}
    (here : state.At represents init exponent) : represents state.result exponent := by
  rw [Ladder.At] at here
  split at here
  · exact here
  · obtain ⟨rfl, same⟩ := here
    rwa [same]

/-- The operations of a ladder act on the exponent. -/
structure Climbs (judgement : Judgement m) (represents : α → Nat → Prop) (square multiply : α → m α)
    (load : m α) : Prop where
  load : judgement.meets load fun result => represents result 1
  square : ∀ result exponent, represents result exponent →
    judgement.meets (square result) fun after => represents after (2 * exponent)
  multiply : ∀ result exponent, represents result exponent →
    judgement.meets (multiply result) fun after => represents after (exponent + 1)

theorem Climbs.bit (climbs : Climbs judgement represents square multiply load) {exponent : Nat}
    {state : Ladder α} (here : state.At represents init exponent) (bit : Bool) :
    judgement.meets (ladderBit square multiply load state bit)
      fun after => after.At represents init (2 * exponent + bit.toNat) := by
  obtain ⟨result, started⟩ := state
  cases started with
  | false =>
      obtain ⟨rfl, same⟩ := here
      cases bit with
      | false => exact judgement.ret ⟨rfl, same⟩
      | true => exact judgement.seq climbs.load fun loaded one => judgement.ret one
  | true =>
      apply judgement.seq (climbs.square result exponent here)
      intro squared power
      cases bit with
      | false => exact judgement.ret power
      | true =>
          apply judgement.seq (climbs.multiply squared _ power)
          intro multiplied more
          exact judgement.ret more

theorem Climbs.bits (climbs : Climbs judgement represents square multiply load) (bits : List Bool)
    {exponent : Nat} {state : Ladder α} (here : state.At represents init exponent) :
    judgement.meets (bits.foldlM (ladderBit square multiply load) state)
      fun after => after.At represents init (exponent * 2 ^ bits.length + bitsValue bits) := by
  induction bits generalizing state exponent with
  | nil =>
      apply judgement.ret
      rw [List.length_nil, pow_zero, Nat.mul_one, bitsValue, List.foldl_nil, Nat.add_zero]
      exact here
  | cons bit bits ih =>
      rw [List.foldlM_cons]
      apply judgement.seq (climbs.bit here bit)
      intro middle there
      have value : (2 * exponent + bit.toNat) * 2 ^ bits.length + bitsValue bits =
          exponent * 2 ^ (bit :: bits).length + bitsValue (bit :: bits) := by
        rw [bitsValue, bitsValue, List.foldl_cons, foldl_bits (2 * 0 + bit.toNat), bitsValue,
          List.length_cons, pow_succ]
        ring
      have reached := ih there
      rwa [value] at reached

end Ladder

/-! ## Montgomery reduction -/

section Montgomery

variable {modulus radix low product factor total : Nat}

/-- Two residues that cancel modulo the radix add up to it, unless both are zero. -/
theorem cancel_carry {left right : Nat} (leftFits : left < radix) (rightFits : right < radix)
    (cancels : radix ∣ left + right) (together : left = 0 → right = 0) :
    left + right = radix * (if left ≠ 0 then 1 else 0) := by
  obtain ⟨times, same⟩ := cancels
  by_cases none : left = 0
  · rw [if_neg (not_not.mpr none), none, together none]
    rfl
  · rw [if_pos none, Nat.mul_one]
    have positive : times ≠ 0 := by
      rintro rfl
      rw [Nat.mul_zero] at same
      omega
    have less : times < 2 := by
      by_contra more
      have twice : radix * 2 ≤ radix * times := Nat.mul_le_mul_left _ (Nat.le_of_not_lt more)
      omega
    obtain rfl : times = 1 := by omega
    rw [same, Nat.mul_one]

/-- What is left over the radix is below twice the modulus. -/
theorem reduced_lt (split : product + factor * modulus = radix * total)
    (productFits : product < modulus * radix) (factorFits : factor < radix) :
    total < 2 * modulus := by
  have added : factor * modulus ≤ radix * modulus := Nat.mul_le_mul_right _ (Nat.le_of_lt factorFits)
  have scaled : radix * total < radix * (2 * modulus) := by
    calc radix * total < modulus * radix + radix * modulus := by omega
      _ = radix * (2 * modulus) := by ring
  exact Nat.lt_of_mul_lt_mul_left scaled

theorem reduced_modEq (split : product + factor * modulus = radix * total) :
    radix * total ≡ product [MOD modulus] := by
  rw [← split]
  exact (Nat.ModEq.refl product).add (Nat.modEq_zero_iff_dvd.mpr (Nat.dvd_mul_left _ _))

/-- One subtraction reduces a number below twice the modulus. -/
theorem sub_reduces (bounded : total < 2 * modulus) :
    (if total ≥ modulus then total - modulus else total) < modulus ∧
      (if total ≥ modulus then total - modulus else total) ≡ total [MOD modulus] := by
  by_cases large : total ≥ modulus
  · rw [if_pos large]
    refine ⟨by omega, ?_⟩
    have whole : total - modulus + modulus = total := Nat.sub_add_cancel large
    conv_rhs => rw [← whole]
    exact (Nat.add_modEq_right).symm
  · rw [if_neg large]
    exact ⟨Nat.lt_of_not_le large, Nat.ModEq.refl _⟩

/-- Each round of Newton's iteration doubles the bits to which the inverse is exact. -/
theorem newton_doubles {bits precision : Nat} {modulus inverse next : ℤ}
    (exact : (2 : ℤ) ^ min precision bits ∣ modulus * inverse - 1)
    (stepped : next ≡ inverse * (2 - modulus * inverse) [ZMOD 2 ^ bits]) :
    (2 : ℤ) ^ min (2 * precision) bits ∣ modulus * next - 1 := by
  have squared : (2 : ℤ) ^ min (2 * precision) bits ∣ (modulus * inverse - 1) *
      (modulus * inverse - 1) := by
    have both := mul_dvd_mul exact exact
    rw [← pow_add] at both
    exact (pow_dvd_pow 2 (by omega)).trans both
  have modular : (2 : ℤ) ^ min (2 * precision) bits ∣
      next - inverse * (2 - modulus * inverse) :=
    (pow_dvd_pow 2 (Nat.min_le_right _ _)).trans stepped.symm.dvd
  have split : modulus * next - 1 = modulus * (next - inverse * (2 - modulus * inverse)) -
      (modulus * inverse - 1) * (modulus * inverse - 1) := by ring
  rw [split]
  exact Int.dvd_sub (Dvd.dvd.mul_left modular _) squared

end Montgomery

/-! ## Powers by Montgomery multiplication -/

section Powers

variable {m : Type → Type} [Monad m] {judgement : Judgement m} {α : Type}
  {holds : α → Nat → Prop} {modulus radix base : Nat} {mul : α → α → m α}

/-- A multiplication that takes the radix out of the product. -/
def Multiplies (judgement : Judgement m) (holds : α → Nat → Prop) (modulus radix : Nat)
    (mul : α → α → m α) : Prop :=
  ∀ left right x y, holds left x → holds right y → x < modulus → y < modulus →
    judgement.meets (mul left right) fun product =>
      ∃ z, holds product z ∧ z < modulus ∧ radix * z ≡ x * y [MOD modulus]

/-- The power of the base, times the radix. -/
def Scaled (holds : α → Nat → Prop) (modulus radix base : Nat) (result : α) (exponent : Nat) :
    Prop :=
  ∃ z, holds result z ∧ z < modulus ∧ z ≡ radix * base ^ exponent [MOD modulus]

theorem Judgement.weaken [LawfulMonad m] {program : m α} {before after : α → Prop}
    (met : judgement.meets program before) (implies : ∀ value, before value → after value) :
    judgement.meets program after := by
  rw [← bind_pure program]
  exact judgement.seq met fun value held => judgement.ret (implies value held)

variable [LawfulMonad m]

/-- Multiplication adds exponents. -/
theorem Multiplies.scaled (multiplies : Multiplies judgement holds modulus radix mul)
    (coprime : Nat.Coprime modulus radix) {left right : α} {first second : Nat}
    (leftScaled : Scaled holds modulus radix base left first)
    (rightScaled : Scaled holds modulus radix base right second) :
    judgement.meets (mul left right)
      fun product => Scaled holds modulus radix base product (first + second) := by
  obtain ⟨x, leftHolds, leftFits, leftPower⟩ := leftScaled
  obtain ⟨y, rightHolds, rightFits, rightPower⟩ := rightScaled
  refine judgement.weaken (multiplies _ _ x y leftHolds rightHolds leftFits rightFits) ?_
  rintro product ⟨z, productHolds, productFits, same⟩
  refine ⟨z, productHolds, productFits, ?_⟩
  have both : radix * z ≡ radix * (radix * base ^ (first + second)) [MOD modulus] := by
    calc radix * z ≡ x * y [MOD modulus] := same
      _ ≡ (radix * base ^ first) * (radix * base ^ second) [MOD modulus] :=
        leftPower.mul rightPower
      _ = radix * (radix * base ^ (first + second)) := by
        rw [pow_add]
        ring
  exact both.cancel_left_of_coprime coprime

/-- A multiplication by the square of the radix scales. -/
theorem Multiplies.enter (multiplies : Multiplies judgement holds modulus radix mul)
    (coprime : Nat.Coprime modulus radix) (base exponent : Nat) {value square : α} {x y : Nat}
    (valueHolds : holds value x) (valueFits : x < modulus)
    (power : x ≡ base ^ exponent [MOD modulus]) (squareHolds : holds square y)
    (squareFits : y < modulus) (squared : y ≡ radix * radix [MOD modulus]) :
    judgement.meets (mul value square)
      fun product => Scaled holds modulus radix base product exponent := by
  refine judgement.weaken (multiplies _ _ x y valueHolds squareHolds valueFits squareFits) ?_
  rintro product ⟨z, productHolds, productFits, same⟩
  refine ⟨z, productHolds, productFits, ?_⟩
  have both : radix * z ≡ radix * (radix * base ^ exponent) [MOD modulus] := by
    calc radix * z ≡ x * y [MOD modulus] := same
      _ ≡ base ^ exponent * (radix * radix) [MOD modulus] := power.mul squared
      _ = radix * (radix * base ^ exponent) := by ring
  exact both.cancel_left_of_coprime coprime

/-- A multiplication by one takes the scale out. -/
theorem Multiplies.leave (multiplies : Multiplies judgement holds modulus radix mul)
    (coprime : Nat.Coprime modulus radix) {value one : α} {exponent : Nat}
    (scaled : Scaled holds modulus radix base value exponent) (oneHolds : holds one 1)
    (oneFits : 1 < modulus) :
    judgement.meets (mul value one)
      fun product => holds product (base ^ exponent % modulus) := by
  obtain ⟨x, valueHolds, valueFits, power⟩ := scaled
  refine judgement.weaken (multiplies _ _ x 1 valueHolds oneHolds valueFits oneFits) ?_
  rintro product ⟨z, productHolds, productFits, same⟩
  have both : radix * z ≡ radix * base ^ exponent [MOD modulus] := by
    calc radix * z ≡ x * 1 [MOD modulus] := same
      _ ≡ radix * base ^ exponent [MOD modulus] := by rw [Nat.mul_one]; exact power
  have exact := both.cancel_left_of_coprime coprime
  rw [← Nat.mod_eq_of_lt productFits, exact] at productHolds
  exact productHolds

theorem Multiplies.climbs (multiplies : Multiplies judgement holds modulus radix mul)
    (coprime : Nat.Coprime modulus radix) {scaledBase : α}
    (scaled : Scaled holds modulus radix base scaledBase 1) :
    Climbs judgement (Scaled holds modulus radix base) (fun result => mul result result)
      (fun result => mul result scaledBase) (pure scaledBase) where
  load := judgement.ret scaled
  square result exponent here := by
    rw [Nat.two_mul]
    exact multiplies.scaled coprime here here
  multiply result exponent here := multiplies.scaled coprime here scaled

end Powers

end EvmZig.Lib
