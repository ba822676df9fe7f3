import EvmZig.Precompile.Modexp

/-!
# The price of a modexp call

The three cost functions over unbounded integers.  A checked computation gives
the exact value, or gives nothing where the value is beyond a bound; composed, the price is exact or
beyond every gas amount.
-/

set_option autoImplicit false

namespace EvmZig.Precompile

open Zig

/-! ## Unbounded costs -/

def wordCount (len : Nat) : Nat := (len + 7) / 8

def multComplexity : ModexpPricing → Nat → Nat
  | .eip198, len =>
      if len ≤ 64 then len * len
      else if len ≤ 1024 then len * len / 4 + 96 * len - 3072
      else len * len / 16 + 480 * len - 199680
  | .eip2565, len => wordCount len * wordCount len
  | .eip7883, len => if len ≤ 32 then 16 else 2 * (wordCount len * wordCount len)

/-- The highest bit of the head, and `multiplier` bits for each byte after it. -/
def exponentBits (multiplier exponentLen head : Nat) : Nat :=
  if exponentLen ≤ 32 then head.size - 1
  else multiplier * (exponentLen - 32) + (head.size - 1)

def modexpCost (pricing : ModexpPricing) (maxLen exponentLen head : Nat) : Nat :=
  match pricing with
  | .eip198 => multComplexity .eip198 maxLen * max (exponentBits 8 exponentLen head) 1 / 20
  | .eip2565 => max (multComplexity .eip2565 maxLen * max (exponentBits 8 exponentLen head) 1 / 3) 200
  | .eip7883 => max (multComplexity .eip7883 maxLen * max (exponentBits 16 exponentLen head) 1) 500

/-- The configuration that brings a pricing. -/
def configOf : ModexpPricing → Config
  | .eip198 => byzantiumConfig
  | .eip2565 => berlinConfig
  | .eip7883 => osakaConfig

/-! ## Exact or beyond a bound -/

def Computes (bound : Nat) (run : Checked Unit Nat) (value : Nat) : Prop :=
  run = .ok value ∨ run = .fail () ∧ bound ≤ value

section Rules

variable {low high middle value left right : Nat} {run : Checked Unit Nat}
  {next : Nat → Checked Unit Nat}

theorem Computes.bind (first : Computes low run middle) (rest : Computes high (next middle) value)
    (beyond : low ≤ middle → high ≤ value) : Computes high (run >>= next) value := by
  rcases first with rfl | ⟨rfl, large⟩
  · exact rest
  · exact .inr ⟨rfl, beyond large⟩

theorem checkedAdd_computes : Computes (2 ^ 256) (checkedAdd left right) (left + right) := by
  rw [checkedAdd, addTrap]
  by_cases fits : left + right < 2 ^ 256
  · rw [if_pos fits]
    exact .inl rfl
  · rw [if_neg fits]
    exact .inr ⟨rfl, Nat.le_of_not_lt fits⟩

theorem checkedMul_computes : Computes (2 ^ 256) (checkedMul left right) (left * right) := by
  rw [checkedMul, mulTrap]
  by_cases fits : left * right < 2 ^ 256
  · rw [if_pos fits]
    exact .inl rfl
  · rw [if_neg fits]
    exact .inr ⟨rfl, Nat.le_of_not_lt fits⟩

theorem castI64_computes : Computes (2 ^ 63) (castI64 value) value := by
  rw [castI64]
  by_cases fits : (value : Int) ≤ i64Max
  · rw [if_pos fits]
    exact .inl rfl
  · rw [if_neg fits]
    rw [i64Max_eq] at fits
    exact .inr ⟨rfl, by omega⟩

end Rules

/-! ## Complexity and iterations -/

section Parts

variable {len exponentLen head multiplier bits : Nat}

theorem ceilDiv_eight (fits : len < 2 ^ 256) : ceilDiv len 8 = some (wordCount len) := by
  have small : len / 8 + (if len % 8 ≠ 0 then 1 else 0) < 2 ^ 256 := by
    split
    · omega
    · omega
  have words : len / 8 + (if len % 8 ≠ 0 then 1 else 0) = wordCount len := by
    rw [wordCount]
    split
    · omega
    · omega
  rw [ceilDiv, divTrap_eq (by decide), remTrap_eq (by decide), Option.bind_eq_bind,
    Option.bind_some, Option.bind_some, addTrap_eq small, words]

theorem bitLength_eq (fits : head < 2 ^ 256) : bitLength head = head.size := by
  have small : head.size ≤ 256 := Nat.size_le.mpr fits
  rw [bitLength]
  by_cases zero : head = 0
  · rw [if_pos zero, zero, Nat.size_zero]
  · rw [if_neg zero, clz]
    omega

theorem longExponent_computes (long : 32 < exponentLen) :
    Computes (2 ^ 256) (longExponent multiplier exponentLen bits)
      (multiplier * (exponentLen - 32) + (bits - 1)) := by
  rw [longExponent, subTrap_eq (Nat.le_of_lt long), Checked.liftM_some, Checked.ok_bind]
  refine checkedMul_computes.bind ?_ (fun large => Nat.le_trans large (Nat.le_add_right _ _))
  by_cases none : bits = 0
  · rw [if_pos none, none]
    exact .inl rfl
  · rw [if_neg none, subTrap_eq (Nat.one_le_iff_ne_zero.mpr none), Checked.liftM_some,
      Checked.ok_bind]
    exact checkedAdd_computes

theorem adjustedExponentLength_computes (fits : head < 2 ^ 256) :
    Computes (2 ^ 256) (adjustedExponentLength exponentLen head)
      (exponentBits 8 exponentLen head) := by
  rw [adjustedExponentLength, exponentBits, bitLength_eq fits]
  by_cases short : exponentLen ≤ 32
  · rw [if_pos short, if_pos short]
    by_cases none : head.size = 0
    · rw [if_pos none, none]
      exact .inl rfl
    · rw [if_neg none, subTrap_eq (Nat.one_le_iff_ne_zero.mpr none)]
      exact .inl rfl
  · rw [if_neg short, if_neg short]
    exact longExponent_computes (Nat.lt_of_not_le short)

theorem modexpOsakaIterationCount_computes (fits : head < 2 ^ 256) :
    Computes (2 ^ 256) (modexpOsakaIterationCount exponentLen head)
      (max (exponentBits 16 exponentLen head) 1) := by
  rw [modexpOsakaIterationCount, exponentBits, bitLength_eq fits]
  by_cases short : exponentLen ≤ 32
  · rw [if_pos short, if_pos short]
    by_cases none : head.size = 0
    · rw [if_pos none, none]
      exact .inl rfl
    · rw [if_neg none, subTrap_eq (Nat.one_le_iff_ne_zero.mpr none)]
      exact .inl rfl
  · rw [if_neg short, if_neg short]
    exact (longExponent_computes (Nat.lt_of_not_le short)).bind (.inl rfl)
      fun large => Nat.le_trans large (Nat.le_max_left _ _)

theorem modexpOsakaMultComplexity_computes (fits : len < 2 ^ 256) :
    Computes (2 ^ 256) (modexpOsakaMultComplexity len) (multComplexity .eip7883 len) := by
  rw [modexpOsakaMultComplexity, multComplexity]
  by_cases short : len ≤ 32
  · rw [if_pos short, if_pos short]
    exact .inl rfl
  · rw [if_neg short, if_neg short, ceilDiv_eight fits, Checked.liftM_some, Checked.ok_bind]
    exact checkedMul_computes.bind checkedMul_computes
      fun large => Nat.le_trans large (Nat.le_mul_of_pos_left _ (by decide))

theorem quarter_covers {square : Nat} (large : 64 < len) (squared : square = len * len) :
    3072 ≤ square / 4 + 96 * len := by
  omega

theorem sixteenth_covers (large : 1024 < len) : 199680 ≤ len * len / 16 + 480 * len := by
  generalize len * len / 16 = part
  omega

theorem square_large (large : 2 ^ 256 ≤ len * len) : 1024 < len := by
  by_contra small
  have bound : len * len ≤ 1024 * 1024 :=
    Nat.mul_le_mul (Nat.le_of_not_lt small) (Nat.le_of_not_lt small)
  omega

/-- Where the square overflows, the complexity is a sixteenth of it or more. -/
theorem eip198_large (large : 2 ^ 256 ≤ len * len) : 2 ^ 250 ≤ multComplexity .eip198 len := by
  have long := square_large large
  rw [multComplexity, if_neg (by omega), if_neg (by omega)]
  generalize len * len = square at *
  omega

theorem eip198MultComplexity_computes :
    Computes (2 ^ 250) (eip198MultComplexity len) (multComplexity .eip198 len) := by
  rw [eip198MultComplexity]
  refine checkedMul_computes.bind ?_ eip198_large
  rw [multComplexity]
  by_cases short : len ≤ 64
  · rw [if_pos short, if_pos short]
    exact .inl rfl
  rw [if_neg short, if_neg short]
  by_cases middle : len ≤ 1024
  · rw [if_pos middle, if_pos middle]
    have covers := quarter_covers (Nat.lt_of_not_le short) (rfl : len * len = len * len)
    refine checkedMul_computes.bind ?_ (fun large => ?_)
    · refine checkedAdd_computes.bind ?_ (fun large => ?_)
      · rw [subTrap_eq covers]
        exact .inl rfl
      · generalize len * len / 4 + 96 * len = combined at *
        omega
    · omega
  · rw [if_neg middle, if_neg middle]
    have covers := sixteenth_covers (Nat.lt_of_not_le middle)
    refine checkedMul_computes.bind ?_ (fun large => ?_)
    · refine checkedAdd_computes.bind ?_ (fun large => ?_)
      · rw [subTrap_eq covers]
        exact .inl rfl
      · generalize len * len / 16 + 480 * len = combined at *
        omega
    · generalize len * len / 16 = part at *
      omega

end Parts

/-! ## The price -/

section Price

variable {maxLen exponentLen head complexity iterations bound : Nat}

theorem le_product (large : bound ≤ complexity) : bound ≤ complexity * max iterations 1 :=
  Nat.le_trans large (Nat.le_mul_of_pos_right _ (Nat.le_max_right _ _))

theorem le_product_of_iterations (nonzero : complexity ≠ 0) (large : bound ≤ iterations) :
    bound ≤ complexity * max iterations 1 :=
  Nat.le_trans (Nat.le_trans large (Nat.le_max_left _ _))
    (Nat.le_mul_of_pos_left _ (Nat.pos_of_ne_zero nonzero))

theorem beyond_twentieth {product : Nat} (large : 2 ^ 250 ≤ product) : 2 ^ 63 ≤ product / 20 := by
  omega

theorem beyond_third {product : Nat} (large : 2 ^ 256 ≤ product) : 2 ^ 63 ≤ max (product / 3) 200 := by
  omega

theorem eip198_computes (headFits : head < 2 ^ 256) :
    Computes (2 ^ 63)
      (do
        let complexity ← eip198MultComplexity maxLen
        if complexity = 0 then return 0
        else do
          let iterationCount ← adjustedExponentLength exponentLen head
          let numerator ← checkedMul complexity (max iterationCount 1)
          let cost ← divTrap numerator 20
          castI64 cost)
      (modexpCost .eip198 maxLen exponentLen head) := by
  rw [modexpCost]
  refine eip198MultComplexity_computes.bind ?_ (fun large => beyond_twentieth (le_product large))
  by_cases none : multComplexity .eip198 maxLen = 0
  · rw [if_pos none, none, Nat.zero_mul, Nat.zero_div]
    exact .inl rfl
  rw [if_neg none]
  refine (adjustedExponentLength_computes headFits).bind ?_ (fun large => ?_)
  · refine checkedMul_computes.bind ?_ (fun large => ?_)
    · rw [divTrap_eq (by decide), Checked.liftM_some, Checked.ok_bind]
      exact castI64_computes
    · exact beyond_twentieth (Nat.le_trans (Nat.pow_le_pow_right (by decide) (by decide)) large)
  · exact beyond_twentieth (Nat.le_trans (Nat.pow_le_pow_right (by decide) (by decide))
      (le_product_of_iterations none large))

theorem eip2565_computes (lenFits : maxLen < 2 ^ 256) (headFits : head < 2 ^ 256) :
    Computes (2 ^ 63)
      (do
        let words ← ceilDiv maxLen 8
        let complexity ← checkedMul words words
        if complexity = 0 then return 200
        else do
          let iterationCount ← adjustedExponentLength exponentLen head
          let numerator ← checkedMul complexity (max iterationCount 1)
          let quotient ← divTrap numerator 3
          castI64 (max quotient 200))
      (modexpCost .eip2565 maxLen exponentLen head) := by
  rw [modexpCost, multComplexity, ceilDiv_eight lenFits, Checked.liftM_some, Checked.ok_bind]
  refine checkedMul_computes.bind ?_ (fun large => beyond_third (le_product large))
  by_cases none : wordCount maxLen * wordCount maxLen = 0
  · rw [if_pos none, none, Nat.zero_mul, Nat.zero_div]
    exact .inl rfl
  rw [if_neg none]
  refine (adjustedExponentLength_computes headFits).bind ?_ (fun large => ?_)
  · refine checkedMul_computes.bind ?_ beyond_third
    rw [divTrap_eq (by decide), Checked.liftM_some, Checked.ok_bind]
    exact castI64_computes
  · exact beyond_third (le_product_of_iterations none large)

theorem osaka_complexity_pos (len : Nat) : multComplexity .eip7883 len ≠ 0 := by
  rw [multComplexity]
  split
  · decide
  · have words : 1 ≤ wordCount len := by
      rw [wordCount]
      omega
    have square : 1 * 1 ≤ wordCount len * wordCount len := Nat.mul_le_mul words words
    omega

theorem eip7883_computes (lenFits : maxLen < 2 ^ 256) (headFits : head < 2 ^ 256) :
    Computes (2 ^ 63)
      (do
        let complexity ← modexpOsakaMultComplexity maxLen
        let iterationCount ← modexpOsakaIterationCount exponentLen head
        let cost ← checkedMul complexity iterationCount
        castI64 (max cost 500))
      (modexpCost .eip7883 maxLen exponentLen head) := by
  have beyond : ∀ {product : Nat}, 2 ^ 256 ≤ product → 2 ^ 63 ≤ max product 500 := fun large =>
    Nat.le_trans (Nat.le_trans (Nat.pow_le_pow_right (by decide) (by decide)) large)
      (Nat.le_max_left _ _)
  rw [modexpCost]
  refine (modexpOsakaMultComplexity_computes lenFits).bind ?_ (fun large => beyond (le_product large))
  refine (modexpOsakaIterationCount_computes headFits).bind ?_ (fun large => ?_)
  · exact checkedMul_computes.bind castI64_computes beyond
  · exact beyond (Nat.le_trans large
      (Nat.le_mul_of_pos_left _ (Nat.pos_of_ne_zero (osaka_complexity_pos maxLen))))

/-- The price is the unbounded cost, or that cost is beyond every gas amount. -/
theorem modexpGas_computes (pricing : ModexpPricing) (limit : Option Nat) {baseLen modulusLen : Nat}
    (baseFits : baseLen < 2 ^ 256) (modulusFits : modulusLen < 2 ^ 256) (headFits : head < 2 ^ 256) :
    Computes (2 ^ 63)
      (modexpGas { configOf pricing with modexpMaxInputLen := limit } baseLen exponentLen modulusLen
        head)
      (modexpCost pricing (max baseLen modulusLen) exponentLen head) := by
  have lenFits : max baseLen modulusLen < 2 ^ 256 := Nat.max_lt.mpr ⟨baseFits, modulusFits⟩
  cases pricing with
  | eip198 => exact eip198_computes headFits
  | eip2565 => exact eip2565_computes lenFits headFits
  | eip7883 => exact eip7883_computes lenFits headFits

end Price

/-! ## Prices that can be paid

A declared length that no address reaches is beyond every gas amount, the length of an
exponent under EIP-198 apart. -/

section Affordable

variable {maxLen exponentLen head : Nat}

/-- Operands this long have no price within `i64`. -/
theorem maxLen_le_of_cost (pricing : ModexpPricing)
    (paid : modexpCost pricing maxLen exponentLen head < 2 ^ 63) : maxLen < 2 ^ 40 := by
  by_contra large
  have long : 2 ^ 40 ≤ maxLen := Nat.le_of_not_lt large
  have words : 2 ^ 37 ≤ wordCount maxLen := by
    rw [wordCount]
    omega
  have square : 2 ^ 37 * 2 ^ 37 ≤ wordCount maxLen * wordCount maxLen := Nat.mul_le_mul words words
  have squared : 2 ^ 40 * 2 ^ 40 ≤ maxLen * maxLen := Nat.mul_le_mul long long
  cases pricing with
  | eip198 =>
      have complexity : 2 ^ 70 ≤ multComplexity .eip198 maxLen := by
        rw [multComplexity, if_neg (by omega), if_neg (by omega)]
        generalize maxLen * maxLen = product at *
        omega
      have product := @le_product _ (exponentBits 8 exponentLen head) _ complexity
      rw [modexpCost] at paid
      omega
  | eip2565 =>
      have complexity : 2 ^ 74 ≤ multComplexity .eip2565 maxLen := by
        rw [multComplexity]
        omega
      have product := @le_product _ (exponentBits 8 exponentLen head) _ complexity
      rw [modexpCost] at paid
      omega
  | eip7883 =>
      have complexity : 2 ^ 74 ≤ multComplexity .eip7883 maxLen := by
        rw [multComplexity, if_neg (by omega)]
        omega
      have product := @le_product _ (exponentBits 16 exponentLen head) _ complexity
      rw [modexpCost] at paid
      omega

theorem exponentBits_ge (multiplier : Nat) : multiplier * (exponentLen - 32) ≤
    exponentBits multiplier exponentLen head := by
  rw [exponentBits]
  split
  · rename_i short
    rw [Nat.sub_eq_zero_of_le short, Nat.mul_zero]
    exact Nat.zero_le _
  · exact Nat.le_add_right _ _

theorem exponentLen_le_of_cost {pricing : ModexpPricing} (later : pricing ≠ .eip198)
    (operand : 0 < maxLen) (paid : modexpCost pricing maxLen exponentLen head < 2 ^ 63) :
    exponentLen < 2 ^ 63 := by
  cases pricing with
  | eip198 => exact (later rfl).elim
  | eip2565 =>
      have words : 1 ≤ wordCount maxLen := by
        rw [wordCount]
        omega
      have complexity : multComplexity .eip2565 maxLen ≠ 0 := by
        rw [multComplexity]
        exact Nat.mul_ne_zero (Nat.ne_of_gt words) (Nat.ne_of_gt words)
      have product := le_product_of_iterations complexity (@exponentBits_ge exponentLen head 8)
      rw [modexpCost] at paid
      omega
  | eip7883 =>
      have product := le_product_of_iterations (osaka_complexity_pos maxLen)
        (@exponentBits_ge exponentLen head 16)
      rw [modexpCost] at paid
      omega

end Affordable

end EvmZig.Precompile
