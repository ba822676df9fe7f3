import EvmZig.Code.Scanner
import Mathlib.Data.BitVec

/-!
# The serial scans

Both serial scans walk the code as `Starts` does, and mark what they pass.
-/

set_option autoImplicit false

namespace EvmZig.Code

open Zig
open Lib (Forward Reaches)

/-! ## The walk over padded code -/

/-- One instruction further, on code that goes on with `STOP` past its end. -/
def stepAt (code : Nat → UInt8) (pc : Nat) : Nat :=
  pc + 1 + (Opcode.pushImmediateLen (code pc)).toNat

/-- The code with zeros past its end. -/
def padded (bytes : List UInt8) (pc : Nat) : UInt8 := bytes.getD pc 0

theorem stepAt_forward (code : Nat → UInt8) : Forward (stepAt code) := fun pc => by
  rw [stepAt]
  omega

theorem immediateLen_le (op : UInt8) : (Opcode.pushImmediateLen op).toNat ≤ 32 := by
  have all : ∀ op : BitVec 8, (Opcode.pushImmediateLen ⟨op⟩).toNat ≤ 32 := by decide +kernel
  exact all op.toBitVec

theorem stepAt_le (code : Nat → UInt8) (pc : Nat) : stepAt code pc ≤ pc + 33 := by
  have len := immediateLen_le (code pc)
  rw [stepAt]
  omega

variable {bytes : List UInt8} {pc place : Nat}

theorem padded_eq {op : UInt8} (here : bytes[pc]? = some op) : padded bytes pc = op := by
  rw [padded, List.getD_eq_getElem?_getD, here]
  rfl

theorem Starts.reaches (starts : Starts bytes pc) : Reaches (stepAt (padded bytes)) 0 pc := by
  induction starts with
  | first => exact .refl 0
  | next _ here ih =>
      have stepped := ih.next
      rw [stepAt, padded_eq here] at stepped
      exact stepped

/-- Up to its end the padded code is walked as the code is. -/
theorem starts_of_reaches (inside : pc < bytes.length)
    (reaches : Reaches (stepAt (padded bytes)) 0 pc) : Starts bytes pc := by
  obtain ⟨steps, rfl⟩ := reaches
  induction steps with
  | zero => exact .first
  | succ steps ih =>
      rw [Function.iterate_succ_apply'] at inside ⊢
      have before := Nat.lt_trans (stepAt_forward (padded bytes) _) inside
      have here := List.getElem?_eq_getElem before
      rw [stepAt, padded_eq here]
      exact (ih before).next here

theorem isJumpDest_iff : IsJumpDest bytes pc ↔
    padded bytes pc = Opcode.jumpdest ∧ Reaches (stepAt (padded bytes)) 0 pc := by
  constructor
  · rintro ⟨here, starts⟩
    exact ⟨padded_eq here, starts.reaches⟩
  · rintro ⟨here, reaches⟩
    have inside : pc < bytes.length := by
      by_contra outside
      rw [padded, List.getD_eq_getElem?_getD,
        List.getElem?_eq_none (Nat.le_of_not_lt outside)] at here
      exact absurd here (by decide)
    refine ⟨?_, starts_of_reaches inside reaches⟩
    rw [padded, List.getD_eq_getElem?_getD] at here
    rw [List.getElem?_eq_getElem inside] at here ⊢
    exact congrArg some here

/-! ## Marks -/

variable {masks after : List Mask}

theorem setBit_marks (inside : pc < 64 * masks.length) :
    ∃ after, setBit masks pc = some after ∧ after.length = masks.length ∧
      ∀ place, isSet after place = (isSet masks place || decide (place = pc)) := by
  have index : pc / 64 < masks.length := by omega
  refine ⟨masks.set (pc / 64) (masks[pc / 64] ||| 1#64 <<< (pc % 64)), ?_, ?_, fun place => ?_⟩
  · rw [setBit, List.getElem?_eq_getElem index]
    rfl
  · exact List.length_set
  · rw [isSet, isSet, List.getD_eq_getElem?_getD, List.getD_eq_getElem?_getD, List.getElem?_set]
    have low := Nat.mod_lt place (show 0 < 64 by decide)
    have lowHere := Nat.mod_lt pc (show 0 < 64 by decide)
    by_cases same : pc / 64 = place / 64
    · rw [if_pos same, if_pos (same ▸ index), ← same, List.getElem?_eq_getElem index]
      simp only [Option.getD_some, BitVec.getLsbD_or, BitVec.getLsbD_shiftLeft, low, decide_true,
        Bool.true_and, BitVec.getLsbD_one]
      congr 1
      rw [Bool.eq_iff_iff]
      simp only [Bool.and_eq_true, Bool.not_eq_true', decide_eq_false_iff_not, decide_eq_true_eq]
      omega
    · have apart : place ≠ pc := fun equal => same (by rw [equal])
      rw [if_neg same, decide_eq_false apart, Bool.or_false]

/-- A scan from `pc` marks the jump destinations it still comes to. -/
def Marks (bytes : List UInt8) (pc : Nat) (masks after : List Mask) : Prop :=
  after.length = masks.length ∧ ∀ place, isSet after place = true ↔
    isSet masks place = true ∨
      padded bytes place = Opcode.jumpdest ∧ Reaches (stepAt (padded bytes)) pc place

theorem Marks.past (outside : ¬pc < bytes.length) : Marks bytes pc masks masks := by
  refine ⟨rfl, fun place => (or_iff_left ?_).symm⟩
  rintro ⟨here, reaches⟩
  have late := reaches.le (stepAt_forward _)
  rw [padded, List.getD_eq_getElem?_getD, List.getElem?_eq_none (by omega)] at here
  exact absurd here (by decide)

/-- One instruction is marked, and the scan goes on behind it. -/
theorem Marks.step {mid : List Mask} {op : UInt8} (here : bytes[pc]? = some op)
    (marked : mid.length = masks.length ∧ ∀ place, isSet mid place =
      (isSet masks place || decide (op = Opcode.jumpdest ∧ place = pc)))
    (rest : Marks bytes (stepAt (padded bytes) pc) mid after) : Marks bytes pc masks after := by
  refine ⟨rest.1.trans marked.1, fun place => ?_⟩
  have onward : Reaches (stepAt (padded bytes)) pc (stepAt (padded bytes) pc) :=
    (Reaches.refl pc).next
  have before : place < stepAt (padded bytes) pc ∧ Reaches (stepAt (padded bytes)) pc place ↔
      place = pc := by
    constructor
    · rintro ⟨early, steps, rfl⟩
      cases steps with
      | zero => rfl
      | succ steps =>
          rw [Function.iterate_succ_apply] at early
          have late : stepAt (padded bytes) pc ≤ _ :=
            Reaches.le (stepAt_forward (padded bytes)) ⟨steps, rfl⟩
          omega
    · rintro rfl
      exact ⟨stepAt_forward _ _, .refl _⟩
  rw [rest.2, marked.2, onward.split (stepAt_forward _), before, Bool.or_eq_true,
    decide_eq_true_eq, or_assoc]
  have same : padded bytes pc = op := padded_eq here
  constructor
  · rintro (held | ⟨found, rfl⟩ | ⟨found, later⟩)
    · exact .inl held
    · exact .inr ⟨same.trans found, .inl rfl⟩
    · exact .inr ⟨found, .inr later⟩
  · rintro (held | ⟨found, rfl | later⟩)
    · exact .inl held
    · exact .inr (.inl ⟨same.symm.trans found, rfl⟩)
    · exact .inr (.inr ⟨found, later⟩)

theorem markAt_marks {op : UInt8} (inside : pc < 64 * masks.length) :
    ∃ mid, markAt masks pc op = some mid ∧ mid.length = masks.length ∧ ∀ place,
      isSet mid place = (isSet masks place || decide (op = Opcode.jumpdest ∧ place = pc)) := by
  unfold markAt
  by_cases found : op = Opcode.jumpdest
  · obtain ⟨mid, ran, length, marked⟩ := setBit_marks inside
    refine ⟨mid, by rw [if_pos found, ran], length, fun place => ?_⟩
    rw [marked]
    simp only [found, true_and]
  · refine ⟨masks, by rw [if_neg found], rfl, fun place => ?_⟩
    rw [decide_eq_false fun both => found both.1, Bool.or_false]

theorem lengths_eq (op : UInt8) : lengths op = 1 + (Opcode.pushImmediateLen op).toNat := by
  have all : ∀ op : BitVec 8, lengths ⟨op⟩ = 1 + (Opcode.pushImmediateLen ⟨op⟩).toNat := by
    decide +kernel
  exact all op.toBitVec

theorem wordsFrom_marks (room : bytes.length ≤ 64 * masks.length) :
    ∃ after, wordsFrom bytes masks pc = some after ∧ Marks bytes pc masks after := by
  induction masks, pc using wordsFrom.induct bytes with
  | case1 masks pc inside ih =>
      have here := List.getElem?_eq_getElem inside
      obtain ⟨mid, marks, length, marked⟩ := @markAt_marks pc masks bytes[pc] (by omega)
      obtain ⟨after, ran, rest⟩ := ih mid (length ▸ room)
      have onward : pc + lengths bytes[pc] = stepAt (padded bytes) pc := by
        rw [stepAt, padded_eq here, lengths_eq]
        omega
      rw [onward] at ran rest
      refine ⟨after, ?_, .step here ⟨length, marked⟩ rest⟩
      rw [wordsFrom, dif_pos inside, marks, onward]
      exact ran
  | case2 masks pc outside =>
      refine ⟨masks, ?_, .past outside⟩
      rw [wordsFrom, dif_neg outside]

theorem referenceFrom_marks (room : bytes.length ≤ 64 * masks.length) :
    ∃ after, referenceFrom bytes masks pc = some after ∧ Marks bytes pc masks after := by
  induction masks, pc using referenceFrom.induct bytes with
  | case1 masks pc inside ih =>
      have here := List.getElem?_eq_getElem inside
      obtain ⟨mid, marks, length, marked⟩ := @markAt_marks pc masks bytes[pc] (by omega)
      obtain ⟨after, ran, rest⟩ := ih mid (length ▸ room)
      have onward : pc + 1 + (Opcode.pushImmediateLen bytes[pc]).toNat = stepAt (padded bytes) pc := by
        rw [stepAt, padded_eq here]
      refine ⟨after, ?_, .step here ⟨length, marked⟩ ?_⟩
      · rw [referenceFrom, dif_pos inside, marks]
        exact ran
      · rw [onward] at rest
        by_cases ends : stepAt (padded bytes) pc ≤ bytes.length
        · rwa [Nat.min_eq_right ends] at rest
        · -- cut to the end of the code, past which neither marks anything
          rw [Nat.min_eq_left (Nat.le_of_not_le ends)] at rest
          refine ⟨rest.1, fun place => ?_⟩
          rw [rest.2, ← (@Marks.past bytes bytes.length mid (Nat.lt_irrefl _)).2]
          exact (@Marks.past bytes _ mid (fun late => ends (Nat.le_of_lt late))).2 place
  | case2 masks pc outside =>
      refine ⟨masks, ?_, .past outside⟩
      rw [referenceFrom, dif_neg outside]

end EvmZig.Code
