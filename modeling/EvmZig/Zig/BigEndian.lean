import Mathlib.Data.Nat.Digits.Lemmas
import Mathlib.Tactic.Ring

/-!
# Big-endian byte strings

A byte string read as a number, the low-order bytes of a number, and the
minimal representation without a leading zero byte.  Minimal representations
and byte strings that do not start with zero are in bijection.
-/

set_option autoImplicit false

namespace EvmZig.Zig

/-- Value of a big-endian byte string. -/
def beValue (bytes : List UInt8) : Nat :=
  bytes.foldl (fun value byte => value * 256 + byte.toNat) 0

/-- The `width` low-order bytes of `value`, most significant first. -/
def beBytes : Nat → Nat → List UInt8
  | 0, _ => []
  | width + 1, value => beBytes width (value / 256) ++ [UInt8.ofNat value]

/-- Number of base-256 digits; 0 only for 0. -/
def byteWidth (value : Nat) : Nat := (Nat.digits 256 value).length

/-- The big-endian representation without a leading zero. -/
def minimalBytes (value : Nat) : List UInt8 := beBytes (byteWidth value) value

theorem beValue_append_singleton (bytes : List UInt8) (byte : UInt8) :
    beValue (bytes ++ [byte]) = beValue bytes * 256 + byte.toNat := by
  simp [beValue]

theorem beValue_append (left right : List UInt8) :
    beValue (left ++ right) =
      beValue left * 256 ^ right.length + beValue right := by
  induction right using List.reverseRecOn with
  | nil => simp [beValue]
  | append_singleton right byte ih =>
      rw [← List.append_assoc, beValue_append_singleton, ih,
        beValue_append_singleton, List.length_append, List.length_singleton, pow_succ]
      ring

@[simp] theorem beBytes_length (width value : Nat) :
    (beBytes width value).length = width := by
  induction width generalizing value with
  | zero => rfl
  | succ width ih => simp [beBytes, ih]

theorem beValue_beBytes (width value : Nat) :
    beValue (beBytes width value) = value % 256 ^ width := by
  induction width generalizing value with
  | zero => simp [beBytes, beValue, Nat.mod_one]
  | succ width ih =>
      rw [beBytes, beValue_append_singleton, ih, pow_succ', Nat.mod_mul]
      simp only [UInt8.toNat_ofNat']
      omega

theorem beValue_lt (bytes : List UInt8) : beValue bytes < 256 ^ bytes.length := by
  induction bytes using List.reverseRecOn with
  | nil => simp [beValue]
  | append_singleton bytes byte ih =>
      have byteLt : byte.toNat < 256 := byte.toNat_lt
      rw [beValue_append_singleton, List.length_append, List.length_singleton, pow_succ]
      omega

theorem beBytes_beValue (bytes : List UInt8) :
    beBytes bytes.length (beValue bytes) = bytes := by
  induction bytes using List.reverseRecOn with
  | nil => rfl
  | append_singleton bytes byte ih =>
      have byteLt : byte.toNat < 256 := byte.toNat_lt
      have quotient : (beValue bytes * 256 + byte.toNat) / 256 = beValue bytes := by omega
      have remainder : UInt8.ofNat (beValue bytes * 256 + byte.toNat) = byte := by
        apply UInt8.toNat_inj.mp
        simp only [UInt8.toNat_ofNat']
        omega
      rw [beValue_append_singleton, List.length_append, List.length_singleton, beBytes,
        quotient, remainder, ih]

theorem beValue_inj {left right : List UInt8} (sameLength : left.length = right.length)
    (sameValue : beValue left = beValue right) : left = right := by
  rw [← beBytes_beValue left, ← beBytes_beValue right, sameLength, sameValue]

/-! ## Minimal representations -/

theorem byteWidth_le_iff {value width : Nat} :
    byteWidth value ≤ width ↔ value < 256 ^ width :=
  Nat.digits_length_le_iff (by norm_num) value

theorem lt_pow_byteWidth (value : Nat) : value < 256 ^ byteWidth value :=
  byteWidth_le_iff.mp (Nat.le_refl _)

@[simp] theorem byteWidth_zero : byteWidth 0 = 0 := rfl

theorem byteWidth_pos {value : Nat} (positive : value ≠ 0) : 0 < byteWidth value := by
  by_contra none
  have bound := lt_pow_byteWidth value
  rw [Nat.eq_zero_of_not_pos none] at bound
  omega

theorem pow_le_of_byteWidth {value width : Nat} (exact : byteWidth value = width + 1) :
    256 ^ width ≤ value := by
  by_contra small
  have narrow := byteWidth_le_iff.mpr (Nat.lt_of_not_le small)
  omega

/-- The only width function with the bound of `byteWidth_le_iff`. -/
theorem eq_byteWidth {value count : Nat}
    (bound : ∀ width, count ≤ width ↔ value < 256 ^ width) : count = byteWidth value := by
  apply Nat.le_antisymm
  · exact (bound _).mpr (lt_pow_byteWidth value)
  · exact byteWidth_le_iff.mpr ((bound _).mp (Nat.le_refl _))

@[simp] theorem minimalBytes_length (value : Nat) :
    (minimalBytes value).length = byteWidth value := by
  simp [minimalBytes]

@[simp] theorem beValue_minimalBytes (value : Nat) : beValue (minimalBytes value) = value := by
  rw [minimalBytes, beValue_beBytes, Nat.mod_eq_of_lt (lt_pow_byteWidth value)]

theorem beValue_cons (byte : UInt8) (rest : List UInt8) :
    beValue (byte :: rest) = byte.toNat * 256 ^ rest.length + beValue rest := by
  have split := beValue_append [byte] rest
  simpa [beValue] using split

/-- A byte string that does not start with zero is as long as its value needs. -/
theorem byteWidth_beValue {bytes : List UInt8} (leading : bytes.head? ≠ some 0) :
    byteWidth (beValue bytes) = bytes.length := by
  cases bytes with
  | nil => rfl
  | cons byte rest =>
      have nonzero : byte.toNat ≠ 0 := by
        intro zero
        exact leading (by simp [UInt8.toNat_inj.mp (show byte.toNat = (0 : UInt8).toNat from zero)])
      have lower : 256 ^ rest.length ≤ beValue (byte :: rest) := by
        rw [beValue_cons]
        exact le_trans (Nat.le_mul_of_pos_left _ (Nat.pos_of_ne_zero nonzero))
          (Nat.le_add_right _ _)
      apply Nat.le_antisymm
      · exact byteWidth_le_iff.mpr (beValue_lt _)
      · by_contra short
        have narrow := byteWidth_le_iff.mp
          (show byteWidth (beValue (byte :: rest)) ≤ rest.length by
            simp only [List.length_cons] at short; omega)
        omega

theorem minimalBytes_beValue {bytes : List UInt8} (leading : bytes.head? ≠ some 0) :
    minimalBytes (beValue bytes) = bytes := by
  rw [minimalBytes, byteWidth_beValue leading, beBytes_beValue]

theorem minimalBytes_head (value : Nat) : (minimalBytes value).head? ≠ some 0 := by
  cases bytesEq : minimalBytes value with
  | nil => simp
  | cons byte rest =>
      intro zero
      simp only [List.head?_cons, Option.some.injEq] at zero
      have lengthEq : byteWidth value = rest.length + 1 := by
        rw [← minimalBytes_length, bytesEq, List.length_cons]
      have valueEq : value = beValue rest := by
        rw [← beValue_minimalBytes value, bytesEq, beValue_cons, zero]
        simp
      have lower := pow_le_of_byteWidth lengthEq
      have upper := beValue_lt rest
      omega

theorem minimalBytes_eq_nil {value : Nat} : minimalBytes value = [] ↔ value = 0 := by
  constructor
  · intro empty
    rw [← beValue_minimalBytes value, empty]
    rfl
  · rintro rfl
    rfl

/-- Dropping the leading zeros of a fixed-width representation. -/
theorem drop_beBytes {width value : Nat} (fits : value < 256 ^ width) :
    (beBytes width value).drop (width - byteWidth value) = minimalBytes value := by
  have narrow : byteWidth value ≤ width := byteWidth_le_iff.mpr fits
  apply beValue_inj
  · simp only [List.length_drop, beBytes_length, minimalBytes_length]
    omega
  · have split := beValue_append ((beBytes width value).take (width - byteWidth value))
      ((beBytes width value).drop (width - byteWidth value))
    rw [List.take_append_drop, beValue_beBytes, Nat.mod_eq_of_lt fits,
      List.length_drop, beBytes_length] at split
    have suffixWidth : width - (width - byteWidth value) = byteWidth value := by omega
    rw [suffixWidth] at split
    have upper := lt_pow_byteWidth value
    have highZero :
        beValue ((beBytes width value).take (width - byteWidth value)) = 0 := by
      by_contra nonzero
      have := Nat.le_mul_of_pos_left (256 ^ byteWidth value) (Nat.pos_of_ne_zero nonzero)
      omega
    rw [highZero, Nat.zero_mul, Nat.zero_add] at split
    rw [beValue_minimalBytes]
    exact split.symm

end EvmZig.Zig
