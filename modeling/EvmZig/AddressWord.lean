import EvmZig.Primitives
import EvmZig.Zig.BigEndian
import Mathlib.Order.Compare

/-!
# Addresses as machine words (`src/address.zig`)

An address read as three big-endian words compares as its bytes do.
-/

set_option autoImplicit false

namespace EvmZig

open Zig

/-- `[3]u64`. -/
structure AddressWord where
  first : U64
  second : U64
  third : U64
  deriving DecidableEq, Repr

namespace AddressWord

/-- `std.mem.readInt(.., .big)` of at most eight bytes. -/
def readInt (bytes : List UInt8) (short : bytes.length ≤ 8) : U64 :=
  ⟨beValue bytes, lt_of_lt_of_le (beValue_lt bytes) (Nat.pow_le_pow_right (by decide) short)⟩

def fromAddress (value : Address) : AddressWord where
  first := readInt (value.val.take 8) (List.length_take_le _ _)
  second := readInt ((value.val.drop 8).take 8) (List.length_take_le _ _)
  third := readInt (value.val.drop 16) (by
    rw [List.length_drop, value.property]
    decide)

def order (left right : AddressWord) : Ordering :=
  if left.first ≠ right.first then compare left.first right.first
  else if left.second ≠ right.second then compare left.second right.second
  else if left.third ≠ right.third then compare left.third right.third
  else .eq

/-- The words as one number. -/
def value (word : AddressWord) : Nat :=
  (word.first.val * 2 ^ 64 + word.second.val) * 2 ^ 64 + word.third.val

theorem value_inj {left right : AddressWord} (same : left.value = right.value) : left = right := by
  obtain ⟨⟨first, _⟩, ⟨second, _⟩, ⟨third, _⟩⟩ := left
  obtain ⟨⟨first', _⟩, ⟨second', _⟩, ⟨third', _⟩⟩ := right
  simp only [value] at same
  simp only [mk.injEq, Fin.mk.injEq]
  omega

theorem compare_of_digit {bound : Nat} {left right : Fin bound} {first second : Nat}
    (differs : left.val ≠ right.val) (less : left.val < right.val → first < second)
    (more : right.val < left.val → second < first) :
    compare first second = compare left right := by
  rcases Nat.lt_or_gt_of_ne differs with below | above
  · rw [compare_lt_iff_lt.mpr (Fin.lt_def.mpr below), compare_lt_iff_lt]
    exact less below
  · rw [compare_gt_iff_gt.mpr (Fin.lt_def.mpr above), compare_gt_iff_gt]
    exact more above

theorem order_eq_compare (left right : AddressWord) :
    order left right = compare left.value right.value := by
  obtain ⟨⟨first, _⟩, ⟨second, _⟩, ⟨third, _⟩⟩ := left
  obtain ⟨⟨first', _⟩, ⟨second', _⟩, ⟨third', _⟩⟩ := right
  simp only [order, value, ne_eq, Fin.mk.injEq]
  symm
  split
  · next differs => apply compare_of_digit differs <;> dsimp only <;> omega
  · split
    · next differs => apply compare_of_digit differs <;> dsimp only <;> omega
    · split
      · next differs => apply compare_of_digit differs <;> dsimp only <;> omega
      · rw [compare_eq_iff_eq]
        omega

end AddressWord

/-! ## Byte order and word order -/

theorem compare_byte (left right : UInt8) :
    compare left right = compare left.toNat right.toNat := by
  simp only [compare, compareOfLessAndEq, UInt8.lt_iff_toNat_lt, UInt8.toNat_inj]

theorem memOrder_eq_compare {left right : List UInt8} (sameLength : left.length = right.length) :
    memOrder left right = compare (beValue left) (beValue right) := by
  induction left generalizing right with
  | nil =>
      obtain rfl := List.length_eq_zero_iff.mp sameLength.symm
      rfl
  | cons byte left ih =>
      cases right with
      | nil => cases sameLength
      | cons other right =>
          have tails := Nat.succ.inj sameLength
          have leftBound := beValue_lt left
          have rightBound := beValue_lt right
          rw [memOrder, beValue_cons, beValue_cons, ← tails, compare_byte]
          rw [← tails] at rightBound
          rcases Nat.lt_trichotomy byte.toNat other.toNat with less | same | more
          · have gap := Nat.mul_le_mul_right (256 ^ left.length) less
            rw [Nat.succ_mul] at gap
            rw [compare_lt_iff_lt.mpr less]
            exact (compare_lt_iff_lt.mpr (by omega)).symm
          · rw [same, compare_eq_iff_eq.mpr (rfl : other.toNat = other.toNat)]
            dsimp only
            rw [ih tails]
            rcases Nat.lt_trichotomy (beValue left) (beValue right) with less | equal | more
            · rw [compare_lt_iff_lt.mpr less, compare_lt_iff_lt.mpr (by omega)]
            · simp only [equal, compare_eq_iff_eq.mpr]
            · rw [compare_gt_iff_gt.mpr more, compare_gt_iff_gt.mpr (by omega)]
          · have gap := Nat.mul_le_mul_right (256 ^ left.length) more
            rw [Nat.succ_mul] at gap
            rw [compare_gt_iff_gt.mpr more]
            exact (compare_gt_iff_gt.mpr (by omega)).symm

theorem memOrder_append {left right : List UInt8} (sameLength : left.length = right.length)
    (leftRest rightRest : List UInt8) :
    memOrder (left ++ leftRest) (right ++ rightRest) =
      if left ≠ right then memOrder left right else memOrder leftRest rightRest := by
  induction left generalizing right with
  | nil =>
      obtain rfl := List.length_eq_zero_iff.mp sameLength.symm
      simp
  | cons byte left ih =>
      cases right with
      | nil => cases sameLength
      | cons other right =>
          simp only [List.cons_append, memOrder]
          rw [compare_byte]
          by_cases same : byte = other
          · subst same
            simp [ih (Nat.succ.inj sameLength)]
          · have differs : byte.toNat ≠ other.toNat := mt UInt8.toNat_inj.mp same
            rcases Nat.lt_or_gt_of_ne differs with less | more
            · simp [same, compare_lt_iff_lt.mpr less]
            · simp [same, compare_gt_iff_gt.mpr more]

theorem readInt_compare {left right : List UInt8} (sameLength : left.length = right.length)
    {leftShort : left.length ≤ 8} {rightShort : right.length ≤ 8} :
    compare (AddressWord.readInt left leftShort) (AddressWord.readInt right rightShort) =
      memOrder left right := by
  rw [memOrder_eq_compare sameLength]
  rfl

theorem readInt_ne_iff {left right : List UInt8} (sameLength : left.length = right.length)
    {leftShort : left.length ≤ 8} {rightShort : right.length ≤ 8} :
    AddressWord.readInt left leftShort ≠ AddressWord.readInt right rightShort ↔ left ≠ right := by
  apply not_congr
  constructor
  · intro same
    exact beValue_inj sameLength (Fin.mk.inj same)
  · rintro rfl
    rfl

/-- Every word is big-endian, so the word order is the byte order. -/
theorem AddressWord.order_fromAddress (left right : Address) :
    order (fromAddress left) (fromAddress right) = left.order right := by
  obtain ⟨left, leftLength⟩ := left
  obtain ⟨right, rightLength⟩ := right
  have leftSplit : left = left.take 8 ++ ((left.drop 8).take 8 ++ left.drop 16) := by
    rw [← List.drop_drop (i := 8) (j := 8), List.take_append_drop, List.take_append_drop]
  have rightSplit : right = right.take 8 ++ ((right.drop 8).take 8 ++ right.drop 16) := by
    rw [← List.drop_drop (i := 8) (j := 8), List.take_append_drop, List.take_append_drop]
  have firsts : (left.take 8).length = (right.take 8).length := by simp [leftLength, rightLength]
  have seconds : ((left.drop 8).take 8).length = ((right.drop 8).take 8).length := by
    simp [leftLength, rightLength]
  have thirds : (left.drop 16).length = (right.drop 16).length := by
    simp [leftLength, rightLength]
  rw [Address.order]
  dsimp only
  conv_rhs => rw [leftSplit, rightSplit, memOrder_append firsts, memOrder_append seconds]
  simp only [order, fromAddress, readInt_compare firsts, readInt_compare seconds,
    readInt_compare thirds, readInt_ne_iff firsts, readInt_ne_iff seconds, readInt_ne_iff thirds]
  split
  · rfl
  · split
    · rfl
    · split
      · rfl
      · next same =>
          rw [not_not.mp same, memOrder_eq_compare rfl, compare_eq_iff_eq.mpr rfl]

theorem Address.order_eq_compare (left right : Address) :
    left.order right =
      compare (AddressWord.fromAddress left).value (AddressWord.fromAddress right).value := by
  rw [← AddressWord.order_fromAddress, AddressWord.order_eq_compare]

theorem AddressWord.fromAddress_inj {left right : Address}
    (same : fromAddress left = fromAddress right) : left = right := by
  have order := Address.order_eq_compare left right
  rw [same, compare_eq_iff_eq.mpr rfl, Address.order,
    memOrder_eq_compare (by rw [left.property, right.property]), compare_eq_iff_eq] at order
  exact Subtype.ext (beValue_inj (by rw [left.property, right.property]) order)

end EvmZig
