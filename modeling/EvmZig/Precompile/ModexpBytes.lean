import EvmZig.Precompile.ModexpInto
import EvmZig.Uint256.Division

/-!
# Bytes, words and limbs of modular exponentiation

The loop over the exponent raises to its value, and the conversions between
bytes and words keep the number.
-/

set_option autoImplicit false

namespace EvmZig.Modexp

open Zig Uint256 Lib

variable {bytes : List UInt8} {limbs : Limbs} {stop : Nat}

/-! ## The exponent -/

theorem byteBits_value (byte : UInt8) : bitsValue (byteBits byte) = byte.toNat := by
  have all : ∀ value : Fin 256,
      bitsValue (byteBits (UInt8.ofNat value.val)) = (UInt8.ofNat value.val).toNat := by
    decide +kernel
  have one := all ⟨byte.toNat, byte.toNat_lt⟩
  rwa [UInt8.ofNat_toNat] at one

theorem byteBits_length (byte : UInt8) : (byteBits byte).length = 8 := List.length_map _

section Ladders

variable {m : Type → Type} [Monad m] {judgement : Judgement m} {α : Type}
  {square multiply : α → m α} {load : m α} {init : α} {represents : α → Nat → Prop}

theorem ladderByte_meets (climbs : Climbs judgement represents square multiply load) (byte : UInt8)
    {exponent : Nat} {state : Ladder α} (here : state.At represents init exponent) :
    judgement.meets (ladderByte square multiply load state byte)
      fun after => after.At represents init (exponent * 256 + byte.toNat) := by
  rw [ladderByte]
  split
  · next skipped =>
      apply judgement.ret
      rw [Ladder.At, skipped.1] at here ⊢
      obtain ⟨rfl, same⟩ := here
      rw [skipped.2]
      exact ⟨rfl, same⟩
  · have read := climbs.bits (byteBits byte) here
    rw [byteBits_value, byteBits_length] at read
    exact read

theorem ladderBytes_meets (climbs : Climbs judgement represents square multiply load)
    (bytes : List UInt8) {exponent : Nat} {state : Ladder α}
    (here : state.At represents init exponent) :
    judgement.meets (bytes.foldlM (ladderByte square multiply load) state)
      fun after => after.At represents init (exponent * 256 ^ bytes.length + beValue bytes) := by
  induction bytes generalizing state exponent with
  | nil =>
      apply judgement.ret
      rw [List.length_nil, pow_zero, Nat.mul_one]
      exact here
  | cons byte bytes ih =>
      rw [List.foldlM_cons]
      apply judgement.seq (ladderByte_meets climbs byte here)
      intro middle there
      have value : (exponent * 256 + byte.toNat) * 256 ^ bytes.length + beValue bytes =
          exponent * 256 ^ (byte :: bytes).length + beValue (byte :: bytes) := by
        rw [beValue_cons, List.length_cons, pow_succ]
        ring
      have reached := ih there
      rwa [value] at reached

/-- The loop raises to the value of the exponent. -/
theorem ladder_meets (climbs : Climbs judgement represents square multiply load)
    (zero : represents init 0) (exponentBytes : List UInt8) :
    judgement.meets (ladder square multiply load init exponentBytes)
      fun result => represents result (beValue exponentBytes) := by
  have start : Ladder.At represents init 0 ⟨init, false⟩ := ⟨rfl, rfl⟩
  apply judgement.seq (ladderBytes_meets climbs exponentBytes start)
  intro state reached
  rw [Nat.zero_mul, Nat.zero_add] at reached
  exact judgement.ret (reached.power zero)

end Ladders

/-! ## Words -/

theorem stripLeadingZeroBytes_value (bytes : List UInt8) :
    beValue (stripLeadingZeroBytes bytes) = beValue bytes := by
  induction bytes with
  | nil => rfl
  | cons byte rest ih =>
      rw [stripLeadingZeroBytes]
      split
      · next zero =>
          rw [ih, beValue_cons, zero]
          exact (Nat.zero_add _).symm.trans (congrArg (· + _) (Nat.zero_mul _).symm)
      · rfl

theorem stripLeadingZeroBytes_length (bytes : List UInt8) :
    (stripLeadingZeroBytes bytes).length ≤ bytes.length := by
  induction bytes with
  | nil => exact Nat.le_refl _
  | cons byte rest ih =>
      rw [stripLeadingZeroBytes]
      split
      · exact Nat.le_succ_of_le ih
      · exact Nat.le_refl _

theorem shl_or_byte {bits value : Nat} (fits : value * 2 ^ 8 < 2 ^ bits) (byte : UInt8) :
    shl bits value 8 ||| byte.toNat = value * 256 + byte.toNat := by
  rw [shl, truncate_eq fits, Nat.mul_comm, ← Nat.two_pow_add_eq_or_of_lt byte.toNat_lt]
  exact congrArg (· + _) (Nat.mul_comm _ _)

theorem readWordBytes_eq {bits : Nat} (fits : 8 * bytes.length ≤ bits) :
    readWordBytes bits bytes = beValue bytes := by
  induction bytes using List.reverseRecOn with
  | nil => rfl
  | append_singleton bytes byte ih =>
      rw [List.length_append, List.length_singleton] at fits
      have shifted : beValue bytes * 2 ^ 8 < 2 ^ bits := by
        calc beValue bytes * 2 ^ 8 < 256 ^ bytes.length * 2 ^ 8 :=
              Nat.mul_lt_mul_of_pos_right (beValue_lt bytes) (Nat.two_pow_pos 8)
          _ = 2 ^ (8 * bytes.length + 8) := by
            rw [pow_add, pow_mul]
            rfl
          _ ≤ 2 ^ bits := Nat.pow_le_pow_right (by decide) (by omega)
      have earlier := ih (by omega)
      rw [readWordBytes] at earlier ⊢
      rw [List.foldl_append, List.foldl_cons, List.foldl_nil, earlier, shl_or_byte shifted,
        beValue_append_singleton]

/-! ## Bytes of a number -/

theorem beBytes_mod (width value : Nat) : beBytes width (value % 256 ^ width) = beBytes width value := by
  apply beValue_inj
  · rw [beBytes_length, beBytes_length]
  · rw [beValue_beBytes, beValue_beBytes, Nat.mod_mod]

theorem beBytes_add (more width value : Nat) :
    beBytes (more + width) value = beBytes more (value / 256 ^ width) ++ beBytes width value := by
  apply beValue_inj
  · rw [List.length_append, beBytes_length, beBytes_length, beBytes_length]
  · rw [beValue_append, beBytes_length, beValue_beBytes, beValue_beBytes, beValue_beBytes,
      Nat.add_comm more, pow_add, Nat.mod_mul, Nat.add_comm, Nat.mul_comm]

theorem beBytes_zero (width : Nat) : beBytes width 0 = List.replicate width 0 := by
  induction width with
  | zero => rfl
  | succ width ih =>
      rw [beBytes, Nat.zero_div, ih, List.replicate_succ']
      rfl

/-- The last bytes of a longer representation. -/
theorem drop_beBytes_left {width len : Nat} (inside : len ≤ width) (value : Nat) :
    (beBytes width value).drop (width - len) = beBytes len value := by
  obtain ⟨more, rfl⟩ := Nat.exists_eq_add_of_le inside
  rw [Nat.add_sub_cancel_left, Nat.add_comm, beBytes_add,
    List.drop_left' (beBytes_length more _)]

/-! ## Limbs -/

/-- An array whose lower limbs hold a number. -/
structure HoldsLimbs (limbCount : Nat) (limbs : Limbs) (number : Nat) : Prop where
  length : limbs.length = maxMontgomeryLimbs
  small : ∀ place < limbCount, limb limbs place < 2 ^ 64
  value : value limbs 0 limbCount = number

theorem limb_cons_succ (first : Nat) (limbs : Limbs) (place : Nat) :
    limb (first :: limbs) (place + 1) = limb limbs place := rfl

theorem value_cons (first : Nat) (limbs : Limbs) (count : Nat) :
    Uint256.value (first :: limbs) 0 (count + 1) = first + 2 ^ 64 * Uint256.value limbs 0 count := by
  induction count with
  | zero =>
      rw [value_succ, value_zero, value_zero, pow_zero, Nat.mul_one, Nat.zero_add, Nat.mul_zero]
      rfl
  | succ count ih =>
      rw [value_succ, ih, Nat.zero_add, limb_cons_succ, value_succ, Nat.zero_add, pow_succ]
      ring

theorem limb_append_left {more : Limbs} {place : Nat} (inside : place < limbs.length) :
    limb (limbs ++ more) place = limb limbs place := by
  rw [limb, limb, List.getD_append _ _ _ _ inside]

theorem value_append_left {more : Limbs} {count : Nat} (inside : count ≤ limbs.length) :
    Uint256.value (limbs ++ more) 0 count = Uint256.value limbs 0 count :=
  value_congr fun index small => limb_append_left (by omega)

theorem limbsUpTo_length (bytes : List UInt8) (count stop : Nat) :
    (limbsUpTo bytes count stop).length = count := by
  induction count generalizing stop with
  | zero => rfl
  | succ count ih =>
      rw [limbsUpTo]
      split
      · rw [clearLimbs, List.length_replicate]
      · rw [List.length_cons, ih]

theorem wordBytes_length (inside : stop ≤ bytes.length) :
    ((bytes.take stop).drop (stop - 8)).length = stop - (stop - 8) := by
  rw [List.length_drop, List.length_take, Nat.min_eq_left inside]

theorem limbsUpTo_small (inside : stop ≤ bytes.length) (count place : Nat) :
    limb (limbsUpTo bytes count stop) place < 2 ^ 64 := by
  induction count generalizing stop place with
  | zero => exact Nat.two_pow_pos 64
  | succ count ih =>
      rw [limbsUpTo]
      split
      · rw [clearLimbs_limb]
        exact Nat.two_pow_pos 64
      · cases place with
        | zero =>
            have word := wordBytes_length inside
            have eight : 8 * (stop - (stop - 8)) ≤ 64 := by omega
            have bound := beValue_lt ((bytes.take stop).drop (stop - 8))
            rw [word] at bound
            have fits : readWordBytes 64 ((bytes.take stop).drop (stop - 8)) < 2 ^ 64 := by
              rw [readWordBytes_eq (word ▸ eight)]
              calc beValue ((bytes.take stop).drop (stop - 8)) < 256 ^ (stop - (stop - 8)) := bound
                _ = 2 ^ (8 * (stop - (stop - 8))) := by
                  rw [pow_mul]
                  rfl
                _ ≤ 2 ^ 64 := Nat.pow_le_pow_right (by decide) eight
            exact fits
        | succ place =>
            rw [limb_cons_succ]
            exact ih (Nat.le_trans (Nat.sub_le _ _) inside) place

theorem limbsUpTo_value {count : Nat} (inside : stop ≤ bytes.length) (covered : stop ≤ 8 * count) :
    Uint256.value (limbsUpTo bytes count stop) 0 count = beValue (bytes.take stop) := by
  induction count generalizing stop with
  | zero =>
      obtain rfl : stop = 0 := by omega
      rfl
  | succ count ih =>
      rw [limbsUpTo]
      split
      · next none =>
          rw [clearLimbs_value, none]
          rfl
      · next left =>
          have word := wordBytes_length inside
          have before : stop - 8 ≤ stop := Nat.sub_le _ _
          have split := beValue_append ((bytes.take stop).take (stop - 8))
            ((bytes.take stop).drop (stop - 8))
          rw [List.take_append_drop, List.take_take, Nat.min_eq_left before, word] at split
          rw [value_cons, ih (Nat.le_trans before inside) (by omega), readWordBytes_eq (by omega),
            split, Nat.add_comm]
          by_cases long : 8 ≤ stop
          · have eight : stop - (stop - 8) = 8 := by omega
            have radix : (256 : Nat) ^ 8 = 2 ^ 64 := by norm_num
            rw [eight, radix, Nat.mul_comm]
          · have none : stop - 8 = 0 := by omega
            rw [none, List.take_zero]
            rw [beValue, List.foldl_nil, Nat.mul_zero, Nat.zero_mul]

theorem limbsFromBytes_holds {count : Nat} {bytes : List UInt8} (room : count ≤ maxMontgomeryLimbs)
    (covered : bytes.length ≤ 8 * count) :
    HoldsLimbs count (limbsFromBytes count bytes) (beValue bytes) where
  length := by
    rw [limbsFromBytes, List.length_append, limbsUpTo_length, clearLimbs, List.length_replicate,
      Nat.add_sub_cancel' room]
  small place inside := by
    rw [limbsFromBytes, limb_append_left (by rwa [limbsUpTo_length])]
    exact limbsUpTo_small (Nat.le_refl _) count place
  value := by
    rw [limbsFromBytes, value_append_left (by rw [limbsUpTo_length]),
      limbsUpTo_value (Nat.le_refl _) covered, List.take_length]

/-- Limbs written from the end over zeros. -/
theorem bytesUpTo_eq {output : List UInt8} (inside : stop ≤ output.length)
    (zeros : output.take stop = List.replicate stop 0)
    (small : ∀ place < limbs.length, limb limbs place < 2 ^ 64)
    (fits : Uint256.value limbs 0 limbs.length < 256 ^ stop) : bytesUpTo limbs output stop =
      some (beBytes stop (Uint256.value limbs 0 limbs.length) ++ output.drop stop) := by
  induction limbs generalizing output stop with
  | nil =>
      rw [bytesUpTo, List.length_nil, value_zero, beBytes_zero, ← zeros, List.take_append_drop]
  | cons first limbs ih =>
      have firstFits : first < 2 ^ 64 := small 0 (Nat.succ_pos _)
      have restSmall : ∀ place < limbs.length, limb limbs place < 2 ^ 64 := fun place below =>
        small (place + 1) (Nat.succ_lt_succ below)
      rw [List.length_cons, value_cons] at fits ⊢
      generalize valueEq : Uint256.value limbs 0 limbs.length = rest at *
      rw [bytesUpTo]
      split
      · next none =>
          subst none
          rw [pow_zero] at fits
          have firstZero : first = 0 := by omega
          have restZero : rest = 0 := by omega
          rw [assert_true firstZero, Option.bind_eq_bind, Option.bind_some,
            ih (Nat.zero_le _) rfl restSmall (by rw [restZero]; exact Nat.one_pos)]
          rfl
      · next left =>
          have before : stop - 8 ≤ stop := Nat.sub_le _ _
          have lenLe : stop - (stop - 8) ≤ 8 := by omega
          have total : stop - 8 + (stop - (stop - 8)) = stop := by omega
          have low : (beBytes 8 first).drop (8 - (stop - (stop - 8))) =
              beBytes (stop - (stop - 8)) first := drop_beBytes_left lenLe first
          have split : first + 2 ^ 64 * rest < 256 ^ (stop - 8) * 256 ^ (stop - (stop - 8)) := by
            rw [← pow_add, total]
            exact fits
          have parts : (first + 2 ^ 64 * rest) / 256 ^ (stop - (stop - 8)) = rest ∧
              beBytes (stop - (stop - 8)) (first + 2 ^ 64 * rest) =
                beBytes (stop - (stop - 8)) first ∨ stop - 8 = 0 ∧ rest = 0 := by
            by_cases long : 8 ≤ stop
            · have eight : stop - (stop - 8) = 8 := by omega
              have radix : (256 : Nat) ^ 8 = 2 ^ 64 := by norm_num
              rw [eight, radix]
              refine .inl ⟨by omega, ?_⟩
              rw [← beBytes_mod 8 (first + 2 ^ 64 * rest), radix, Nat.add_mul_mod_self_left,
                Nat.mod_eq_of_lt firstFits]
            · have none : stop - 8 = 0 := by omega
              have radix : 256 ^ stop ≤ 256 ^ 8 := Nat.pow_le_pow_right (by decide) (by omega)
              have whole : (256 : Nat) ^ 8 = 2 ^ 64 := by norm_num
              refine .inr ⟨none, ?_⟩
              omega
          have combined : beBytes stop (first + 2 ^ 64 * rest) =
              beBytes (stop - 8) rest ++ beBytes (stop - (stop - 8)) first := by
            have added := beBytes_add (stop - 8) (stop - (stop - 8)) (first + 2 ^ 64 * rest)
            rw [total] at added
            rcases parts with ⟨quotient, lowBytes⟩ | ⟨none, restZero⟩
            · rw [added, quotient, lowBytes]
            · rw [added, none, restZero, Nat.mul_zero, Nat.add_zero]
              rfl
          have restFits : rest < 256 ^ (stop - 8) := by
            rcases parts with ⟨quotient, _⟩ | ⟨none, restZero⟩
            · rw [← quotient, Nat.div_lt_iff_lt_mul (by positivity)]
              exact split
            · rw [restZero]
              exact Nat.pow_pos (by decide)
          have wide : stop - 8 + (beBytes (stop - (stop - 8)) first).length ≤ output.length := by
            rw [beBytes_length]
            omega
          dsimp only
          rw [subTrap_eq before, Option.bind_eq_bind, Option.bind_some, low, copyInto, if_pos wide,
            Option.bind_eq_bind, Option.bind_some]
          have shorter : (output.take (stop - 8)).length = stop - 8 := by
            rw [List.length_take]
            omega
          have startZeros : output.take (stop - 8) = List.replicate (stop - 8) 0 := by
            have cut := congrArg (List.take (stop - 8)) zeros
            rwa [List.take_take, Nat.min_eq_left before, List.take_replicate,
              Nat.min_eq_left before] at cut
          rw [ih (by rw [List.length_append, List.length_append, shorter]; omega)
            (by rw [List.append_assoc, List.take_left' shorter]; exact startZeros) restSmall restFits,
            List.append_assoc, List.drop_left' shorter, beBytes_length, total, combined,
            List.append_assoc]

/-- The output of the limb path. -/
theorem bytesFromLimbs_eq {limbCount number len : Nat} (room : limbCount ≤ maxMontgomeryLimbs)
    (holds : HoldsLimbs limbCount limbs number) (fits : number < 256 ^ len) :
    bytesFromLimbs (List.replicate len 0) (limbs.take limbCount) = some (beBytes len number) := by
  have taken : (limbs.take limbCount).length = limbCount := by
    rw [List.length_take, holds.length, Nat.min_eq_left room]
  have same : ∀ place < limbCount, limb (limbs.take limbCount) place = limb limbs place := by
    intro place below
    rw [limb, limb, List.getD_eq_getElem?_getD, List.getD_eq_getElem?_getD,
      List.getElem?_take_of_lt below]
  have valueEq : Uint256.value (limbs.take limbCount) 0 limbCount = number := by
    rw [← holds.value]
    exact value_congr fun index small => by
      rw [Nat.zero_add]
      exact same index small
  rw [bytesFromLimbs, List.length_replicate, bytesUpTo_eq, taken, valueEq, List.drop_eq_nil_of_le,
    List.append_nil]
  · rw [List.length_replicate]
  · rw [List.length_replicate]
  · rw [List.take_replicate, Nat.min_self]
  · intro place below
    rw [taken] at below
    rw [same place below]
    exact holds.small place below
  · rw [taken, valueEq]
    exact fits

end EvmZig.Modexp
