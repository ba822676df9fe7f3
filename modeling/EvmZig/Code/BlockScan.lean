import EvmZig.Code.SerialScan

/-!
# The block scan

Pointer doubling finds, for every byte of a group, the walk that starts there.
Followed from the carry, four groups show the instruction starts of a block and
the carry into the next.
-/

set_option autoImplicit false

namespace EvmZig.Code

open Zig
open Lib (Forward Reaches Visits hop)

/-! ## Bytes -/

theorem immediates_eq (byte : UInt8) : immediates byte = Opcode.pushImmediateLen byte := by
  have all : ∀ byte : BitVec 8, immediates ⟨byte⟩ = Opcode.pushImmediateLen ⟨byte⟩ := by
    decide +kernel
  exact all byte.toBitVec

theorem pshufb_index (index : UInt8) (small : index.toNat ≤ 143) :
    ((index + 0x70) &&& 0x80 ≠ 0 ↔ 16 ≤ index.toNat) ∧
      (index.toNat < 16 → ((index + 0x70) &&& 0x0f).toNat % 16 = index.toNat) := by
  have all : ∀ index : BitVec 8, (⟨index⟩ : UInt8).toNat ≤ 143 →
      (((⟨index⟩ : UInt8) + 0x70) &&& 0x80 ≠ 0 ↔ 16 ≤ (⟨index⟩ : UInt8).toNat) ∧
        ((⟨index⟩ : UInt8).toNat < 16 →
          (((⟨index⟩ : UInt8) + 0x70) &&& 0x0f).toNat % 16 = (⟨index⟩ : UInt8).toNat) := by
    decide +kernel
  exact all index.toBitVec small

/-- On the indices that occur, both lookups are the table, and zero past it. -/
theorem lookup_eq (arch : Arch) (table indices : Lanes) (lane : Fin 16)
    (small : (indices lane).toNat ≤ 143) :
    lookup arch table indices lane =
      if inside : (indices lane).toNat < 16 then table ⟨(indices lane).toNat, inside⟩ else 0 := by
  cases arch with
  | aarch64 => rfl
  | x86_64 =>
      obtain ⟨past, within⟩ := pshufb_index (indices lane) small
      rw [lookup, pshufb]
      by_cases inside : (indices lane).toNat < 16
      · rw [dif_pos inside, if_neg (fun top => absurd (past.mp top) (Nat.not_le.mpr inside))]
        congr 1
        exact Fin.ext (within inside)
      · rw [dif_neg inside, if_pos (past.mpr (Nat.le_of_not_lt inside))]

theorem max_toNat (left right : UInt8) : (max left right).toNat = max left.toNat right.toNat := by
  change (if left ≤ right then right else left).toNat = _
  by_cases ordered : left ≤ right
  · rw [if_pos ordered, Nat.max_eq_right (UInt8.le_iff_toNat_le.mp ordered)]
  · have late : right.toNat ≤ left.toNat :=
      Nat.le_of_not_le fun below => ordered (UInt8.le_iff_toNat_le.mpr below)
    rw [if_neg ordered, Nat.max_eq_left late]

/-! ## Groups -/

/-- The walks of a group, after up to `steps` steps each. -/
structure Walked (step : Nat → Nat) (steps lowSteps : Nat) (walks : GroupWalks) : Prop where
  exits : ∀ lane : Fin 16, (walks.exits lane).toNat = hop step 16 steps lane
  low : ∀ lane : Fin 16, ∀ bit < 8, (walks.low lane).toNat.testBit bit = true ↔
    Visits step 16 lowSteps lane bit
  high : ∀ lane : Fin 16, ∀ bit < 8, (walks.high lane).toNat.testBit bit = true ↔
    Visits step 16 steps lane (bit + 8)

section Groups

variable {code : Nat → UInt8} {walks : GroupWalks} {steps : Nat} {arch : Arch}

theorem hop_small (lane : Fin 16) : hop (stepAt code) 16 steps lane ≤ 48 := by
  apply Lib.hop_le
  · intro place inside
    have near := stepAt_le code place
    omega
  · have inside := lane.isLt
    omega

theorem testBit_laneBit (lane : Fin 16) (bit : Nat) (small : bit < 8) :
    ((UInt8.ofNat (2 ^ (lane.val % 8))).toNat.testBit bit = true ↔ bit = lane.val % 8) := by
  have all : ∀ lane : Fin 8, ∀ bit : Fin 8,
      ((UInt8.ofNat (2 ^ lane.val)).toNat.testBit bit.val = true ↔ bit.val = lane.val) := by decide
  exact all ⟨lane.val % 8, Nat.mod_lt _ (by decide)⟩ ⟨bit, small⟩

theorem firstWalks_walked (bytes : Lanes) (same : ∀ lane : Fin 16, bytes lane = code lane) :
    Walked (stepAt code) 1 1 (firstWalks bytes) where
  exits lane := by
    have len := immediateLen_le (code lane)
    have inside := lane.isLt
    rw [firstWalks, hop, if_pos inside, hop, stepAt]
    dsimp only
    rw [immediates_eq, same, UInt8.toNat_add, UInt8.toNat_ofNat']
    omega
  low lane bit small := by
    have inside := lane.isLt
    rw [firstWalks, Visits.one]
    dsimp only
    by_cases first : lane.val < 8
    · have bits := testBit_laneBit lane bit small
      rw [Nat.mod_eq_of_lt first] at bits
      rw [if_pos first, bits]
      exact ⟨fun same => ⟨inside, same⟩, fun both => both.2⟩
    · rw [if_neg first]
      simp only [UInt8.toNat_zero, Nat.zero_testBit, Bool.false_eq_true, false_iff, not_and]
      omega
  high lane bit small := by
    have inside := lane.isLt
    rw [firstWalks, Visits.one]
    dsimp only
    by_cases first : lane.val < 8
    · rw [if_pos first]
      simp only [UInt8.toNat_zero, Nat.zero_testBit, Bool.false_eq_true, false_iff, not_and]
      omega
    · have bits := testBit_laneBit lane bit small
      have high : lane.val % 8 = lane.val - 8 := by omega
      rw [high] at bits
      rw [if_neg first, bits]
      constructor
      · exact fun same => ⟨inside, by omega⟩
      · exact fun both => by omega

/-- Looked up at the exits, a table of stops gives the stops from there. -/
theorem lookup_visits {table : Lanes} {count offset : Nat}
    (exits : ∀ lane : Fin 16, (walks.exits lane).toNat = hop (stepAt code) 16 steps lane)
    (stops : ∀ lane : Fin 16, ∀ bit < 8, (table lane).toNat.testBit bit = true ↔
      Visits (stepAt code) 16 count lane (bit + offset))
    (lane : Fin 16) (bit : Nat) (small : bit < 8) :
    ((lookup arch table walks.exits lane).toNat.testBit bit = true ↔
      Visits (stepAt code) 16 count (hop (stepAt code) 16 steps lane) (bit + offset)) := by
  have range : (walks.exits lane).toNat ≤ 143 := by
    rw [exits]
    exact Nat.le_trans (hop_small lane) (by decide)
  rw [lookup_eq arch _ _ _ range]
  by_cases inside : (walks.exits lane).toNat < 16
  · rw [dif_pos inside, stops _ bit small, ← exits]
  · rw [dif_neg inside]
    simp only [UInt8.toNat_zero, Nat.zero_testBit, Bool.false_eq_true, false_iff]
    apply Visits.not_past
    rw [← exits]
    exact Nat.le_of_not_lt inside

/-- A round doubles the walks. -/
theorem doubled_exits
    (exits : ∀ lane : Fin 16, (walks.exits lane).toNat = hop (stepAt code) 16 steps lane)
    (lowStops : Bool) (lane : Fin 16) :
    ((doubled arch lowStops walks).exits lane).toNat = hop (stepAt code) 16 (steps + steps) lane := by
  have range : (walks.exits lane).toNat ≤ 143 := by
    rw [exits]
    exact Nat.le_trans (hop_small lane) (by decide)
  rw [doubled, max_toNat, lookup_eq arch _ _ _ range, Lib.hop_add, ← exits]
  by_cases inside : (walks.exits lane).toNat < 16
  · rw [dif_pos inside, exits ⟨_, inside⟩]
    apply Nat.max_eq_right
    exact (Lib.hop_reaches _ _).le (stepAt_forward code)
  · rw [dif_neg inside, Lib.hop_past (Nat.le_of_not_lt inside)]
    exact Nat.max_eq_left (Nat.zero_le _)

variable (arch) in
theorem Walked.doubled (walked : Walked (stepAt code) steps steps walks) :
    Walked (stepAt code) (steps + steps) (steps + steps) (doubled arch true walks) where
  exits := doubled_exits walked.exits true
  low lane bit small := by
    rw [Code.doubled]
    dsimp only
    rw [if_pos rfl, UInt8.toNat_or, Nat.testBit_or, Bool.or_eq_true, walked.low lane bit small,
      Visits.double]
    exact or_congr_right (@lookup_visits _ _ _ arch _ steps 0 walked.exits walked.low lane bit small)
  high lane bit small := by
    rw [Code.doubled, UInt8.toNat_or, Nat.testBit_or, Bool.or_eq_true, walked.high lane bit small,
      Visits.double]
    exact or_congr_right (lookup_visits walked.exits walked.high lane bit small)

/-- The last round adds high stops only: eight steps have shown all low ones. -/
theorem Walked.last (walked : Walked (stepAt code) 8 8 walks) :
    Walked (stepAt code) 16 16 (Code.doubled arch false walks) where
  exits := doubled_exits walked.exits false
  low lane bit small := by
    rw [Code.doubled]
    dsimp only
    rw [if_neg (by decide), walked.low lane bit small]
    exact (@Visits.enough _ 16 lane bit 8 8 (stepAt_forward code) (by omega)).symm
  high lane bit small := by
    rw [Code.doubled, UInt8.toNat_or, Nat.testBit_or, Bool.or_eq_true, walked.high lane bit small]
    exact (or_congr_right (lookup_visits walked.exits walked.high lane bit small)).trans
      (Visits.double 8 8 _ _).symm

/-- Four rounds take every walk out of its group. -/
theorem groupWalks_walked (bytes : Lanes) (same : ∀ lane : Fin 16, bytes lane = code lane) :
    Walked (stepAt code) 16 16 (groupWalks arch bytes) :=
  ((((firstWalks_walked bytes same).doubled arch).doubled arch).doubled arch).last

end Groups

end EvmZig.Code
