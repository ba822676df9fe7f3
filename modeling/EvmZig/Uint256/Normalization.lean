import EvmZig.Uint256.Division

/-!
# Shifts over limb arrays

The operands are shifted until the top bit of the divisor is set, and the
remainder is shifted back.
-/

set_option autoImplicit false

namespace EvmZig.Uint256

open Zig

section Copying

variable {out limbs : Limbs} {len shift : Nat}

/-- A write to the limb after those written. -/
theorem Rewrites.next {after : Limbs} {count digit : Nat} (rewrites : Rewrites 0 count out after)
    (small : digit < 2 ^ 64) (inside : count < after.length) :
    Rewrites 0 (count + 1) out (after.set count digit) ∧
      value (after.set count digit) 0 (count + 1) =
        value after 0 count + digit * (2 ^ 64) ^ count := by
  have at0 : 0 + count = count := Nat.zero_add count
  have pushed := rewrites.push small (by rwa [at0])
  have valued := @value_push 0 count after (by rwa [at0]) digit
  rw [at0] at pushed valued
  exact ⟨pushed, valued⟩

theorem copyLimbs_eq (room : len ≤ out.length) (holds : Holds limbs len) :
    ∃ after, copyLimbs out limbs len = some after ∧ Rewrites 0 len out after ∧
      value after 0 len = value limbs 0 len := by
  have initial : Rewrites 0 0 out out ∧ value out 0 0 = value limbs 0 0 :=
    ⟨Rewrites.none out 0, rfl⟩
  obtain ⟨after, ran, rewrites, copied⟩ := @forUp_rule Limbs (fun out i => do
      let limb ← limbs.get i
      out.put i limb) len out
    (fun count after => Rewrites 0 count out after ∧ value after 0 count = value limbs 0 count)
    initial (by
      rintro index small state ⟨rewrites, same⟩
      have inside : index < state.length := by
        rw [rewrites.length]
        exact Nat.lt_of_lt_of_le small room
      obtain ⟨next, valued⟩ := rewrites.next (holds.small index small) inside
      refine ⟨_, ?_, next, ?_⟩
      · rw [get_eq (Nat.lt_of_lt_of_le small holds.room), Option.bind_eq_bind, Option.bind_some,
          put_eq inside]
      · rw [valued, same, value_succ, Nat.zero_add])
  exact ⟨after, ran, rewrites, copied⟩

theorem shift_balance {base scale lower lower' high spill spill' power digit : Nat}
    (held : lower' + spill * scale = lower * power)
    (moved : digit + base * spill' = high * power + spill) :
    lower' + digit * scale + spill' * (scale * base) = (lower + high * scale) * power := by
  zify at *
  linear_combination held + scale * moved

/-- The shifted limbs, and what spills over the top. -/
theorem shiftUp_eq (positive : 0 < len) (room : len ≤ out.length) (holds : Holds limbs len)
    (within : shift ≤ 64) :
    ∃ after, shiftUp out limbs len shift = some after ∧ Rewrites 0 len out after ∧
      value after 0 len + shr (limb limbs (len - 1)) (64 - shift) * (2 ^ 64) ^ len =
        value limbs 0 len * 2 ^ shift := by
  obtain ⟨more, rfl⟩ : ∃ more, len = more + 1 := ⟨len - 1, by omega⟩
  have first : 0 < out.length := Nat.lt_of_lt_of_le positive room
  obtain ⟨written, valued⟩ := (Rewrites.none out 0).next
    (truncate_lt 64 (limb limbs 0 * 2 ^ shift)) first
  have initial : Rewrites 0 (0 + 1) out (out.set 0 (shl 64 (limb limbs 0) shift)) ∧
      value (out.set 0 (shl 64 (limb limbs 0) shift)) 0 (0 + 1) +
        shr (limb limbs 0) (64 - shift) * (2 ^ 64) ^ (0 + 1) = value limbs 0 (0 + 1) * 2 ^ shift := by
    refine ⟨written, ?_⟩
    have moved := @shl_add_shr 64 (limb limbs 0) shift within
    have valued' : value (out.set 0 (shl 64 (limb limbs 0) shift)) 0 (0 + 1) =
        value out 0 0 + shl 64 (limb limbs 0) shift * (2 ^ 64) ^ 0 := valued
    rw [valued', value_succ, value_zero, value_zero, pow_zero, Nat.mul_one, Nat.mul_one,
      Nat.zero_add, Nat.zero_add, pow_one, Nat.mul_comm (shr _ _), Nat.zero_add]
    exact moved
  obtain ⟨after, ran, rewrites, shifted⟩ := @forUp_rule Limbs (fun out before => do
      let high ← limbs.get (before + 1)
      let low ← limbs.get before
      out.put (before + 1) (shl 64 high shift ||| shr low (64 - shift))) more
    (out.set 0 (shl 64 (limb limbs 0) shift))
    (fun before after => Rewrites 0 (before + 1) out after ∧
      value after 0 (before + 1) + shr (limb limbs before) (64 - shift) * (2 ^ 64) ^ (before + 1) =
        value limbs 0 (before + 1) * 2 ^ shift)
    initial (by
      rintro before small state ⟨rewrites, balance⟩
      have inside : before + 1 < state.length := by
        rw [rewrites.length]
        omega
      have lowFits := holds.small before (by omega)
      have digitFits := @shl_or_shr_lt 64 (limb limbs (before + 1)) shift _ within lowFits
      obtain ⟨next, valued⟩ := rewrites.next digitFits inside
      refine ⟨_, ?_, next, ?_⟩
      · have has := holds.room
        rw [get_eq (by omega), Option.bind_eq_bind, Option.bind_some, get_eq (by omega),
          Option.bind_some, put_eq inside, shl_or_shr within lowFits]
      · rw [valued, @value_succ limbs, Nat.zero_add, pow_succ _ (before + 1)]
        refine shift_balance balance ?_
        rw [Nat.add_right_comm, shl_add_shr within])
  have has := holds.room
  refine ⟨after, ?_, rewrites, shifted⟩
  rw [shiftUp, get_eq (by omega), Option.bind_eq_bind, Option.bind_some, put_eq first,
    Option.bind_eq_bind, Option.bind_some, Nat.add_sub_cancel]
  exact ran

end Copying

/-! ## Shifting back -/

section ShiftingBack

variable {u : Limbs} {divisorLen shift : Nat}

/-- The limb above gives its low bits to the top of this one. -/
theorem shl_back (within : shift ≤ 64) (next : Nat) :
    2 ^ shift * shl 64 next (64 - shift) = 2 ^ 64 * (next % 2 ^ shift) := by
  have whole : 2 ^ 64 = 2 ^ shift * 2 ^ (64 - shift) := by
    rw [← pow_add, Nat.add_sub_cancel' within]
  rw [shl, truncate, whole, Nat.mul_mod_mul_right]
  ring

theorem shr_or_shl {low next : Nat} (within : shift ≤ 64) (fits : low < 2 ^ 64) :
    shr low shift ||| shl 64 next (64 - shift) = shl 64 next (64 - shift) + shr low shift ∧
      shl 64 next (64 - shift) + shr low shift < 2 ^ 64 := by
  have back : 64 - (64 - shift) = shift := by omega
  have joined := @shl_or_shr 64 next (64 - shift) low (Nat.sub_le _ _) fits
  have small := @shl_or_shr_lt 64 next (64 - shift) low (Nat.sub_le _ _) fits
  rw [back] at joined small
  exact ⟨(Nat.or_comm _ _).trans joined, small⟩

theorem back_balance {base scale lower lower' rest rest' first power low digit : Nat}
    (held : power * lower' + first = lower + rest * scale)
    (moved : power * digit + rest = low + base * rest') :
    power * (lower' + digit * scale) + first = lower + low * scale + rest' * (scale * base) := by
  zify at *
  linear_combination held + scale * moved

theorem unnormalizeRemainder_eq (within : shift < 64) (few : divisorLen ≤ 4)
    (positive : 0 < divisorLen) (holds : Holds u divisorLen) {remainder : Nat}
    (shifted : value u 0 divisorLen = remainder * 2 ^ shift) :
    ∃ out, unnormalizeRemainder u divisorLen shift = some out ∧ Holds out 4 ∧ out.length = 4 ∧
      value out 0 4 = remainder := by
  have cleared : Holds (clearLimbs 4) 4 := ⟨Nat.le_refl 4, fun place _ => by
    rw [clearLimbs_limb]
    exact Nat.two_pow_pos 64⟩
  -- the limbs above the divisor's are zero
  have padded : ∀ out, Rewrites 0 divisorLen (clearLimbs 4) out →
      value out 0 4 = value out 0 divisorLen := by
    intro out rewrites
    have split := @Lib.number_add (2 ^ 64) 0 (limb out) divisorLen (4 - divisorLen)
    have above : Lib.number (2 ^ 64) (limb out) (0 + divisorLen) (4 - divisorLen) = 0 :=
      Lib.number_zeros fun index _ => by
        rw [rewrites.same _ (by omega), clearLimbs_limb]
    rw [above, Nat.mul_zero, Nat.add_zero, Nat.add_sub_cancel' few] at split
    exact split
  rw [unnormalizeRemainder]
  by_cases none : shift = 0
  · obtain ⟨out, ran, rewrites, same⟩ := @copyLimbs_eq (clearLimbs 4) u divisorLen few holds
    refine ⟨out, ?_, cleared.rewritten rewrites, rewrites.length, ?_⟩
    · rw [if_pos none, ran]
    · rw [padded out rewrites, same, shifted, none, pow_zero, Nat.mul_one]
  rw [if_neg none]
  have initial : Rewrites 0 0 (clearLimbs 4) (clearLimbs 4) ∧
      2 ^ shift * value (clearLimbs 4) 0 0 + limb u 0 % 2 ^ shift =
        value u 0 0 + (if 0 < divisorLen then limb u 0 % 2 ^ shift else 0) * (2 ^ 64) ^ 0 := by
    refine ⟨Rewrites.none _ 0, ?_⟩
    rw [value_zero, value_zero, if_pos positive, pow_zero, Nat.mul_zero, Nat.mul_one]
  obtain ⟨out, ran, rewrites, balance⟩ := @forUp_rule Limbs (fun out i => do
      let limb ← u.get i
      let upper ← if i + 1 < divisorLen then (shl 64 · (64 - shift)) <$> u.get (i + 1) else some 0
      out.put i (shr limb shift ||| upper)) divisorLen (clearLimbs 4)
    (fun count out => Rewrites 0 count (clearLimbs 4) out ∧
      2 ^ shift * value out 0 count + limb u 0 % 2 ^ shift =
        value u 0 count + (if count < divisorLen then limb u count % 2 ^ shift else 0) *
          (2 ^ 64) ^ count)
    initial (by
      rintro index small state ⟨rewrites, balance⟩
      have inside : index < state.length := by
        rw [rewrites.length]
        exact Nat.lt_of_lt_of_le small few
      have has := holds.room
      have fits := holds.small index small
      have low := Nat.div_add_mod (limb u index) (2 ^ shift)
      rw [if_pos small] at balance
      by_cases more : index + 1 < divisorLen
      · obtain ⟨joined, digitFits⟩ := @shr_or_shl shift _ (limb u (index + 1)) (Nat.le_of_lt within) fits
        obtain ⟨next, valued⟩ := rewrites.next digitFits inside
        refine ⟨_, ?_, next, ?_⟩
        · rw [get_eq (by omega), Option.bind_eq_bind, Option.bind_some, if_pos more,
            get_eq (by omega), Option.map_eq_map, Option.map_some,
            Option.bind_some]
          dsimp only
          rw [joined, put_eq inside]
        · rw [valued, @value_succ u, Nat.zero_add, if_pos more, pow_succ]
          refine back_balance balance ?_
          rw [Nat.mul_add, shl_back (Nat.le_of_lt within), shr]
          omega
      · have digitFits : shr (limb u index) shift < 2 ^ 64 :=
          Nat.lt_of_le_of_lt (Nat.div_le_self _ _) fits
        obtain ⟨next, valued⟩ := rewrites.next digitFits inside
        refine ⟨_, ?_, next, ?_⟩
        · rw [get_eq (by omega), Option.bind_eq_bind, Option.bind_some, if_neg more,
            Option.bind_some]
          dsimp only
          rw [Nat.or_zero, put_eq inside]
        · rw [valued, @value_succ u, Nat.zero_add, if_neg more, pow_succ]
          refine back_balance balance ?_
          rw [shr, Nat.mul_zero, Nat.add_zero]
          exact low)
  refine ⟨out, ran, cleared.rewritten rewrites, rewrites.length, ?_⟩
  rw [if_neg (Nat.lt_irrefl _), Nat.zero_mul, Nat.add_zero, shifted] at balance
  have small := Nat.mod_lt (limb u 0) (Nat.two_pow_pos shift)
  have exact : (2 ^ shift * value out 0 divisorLen + limb u 0 % 2 ^ shift) / 2 ^ shift =
      value out 0 divisorLen := by
    rw [Nat.mul_add_div (Nat.two_pow_pos shift), Nat.div_eq_of_lt small, Nat.add_zero]
  rw [padded out rewrites, ← exact, balance, Nat.mul_div_cancel _ (Nat.two_pow_pos shift)]

end ShiftingBack

end EvmZig.Uint256
