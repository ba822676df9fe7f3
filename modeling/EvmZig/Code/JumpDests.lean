import EvmZig.Code.BlockScan

/-!
# All scans find the same jump destinations

The four walks of a block, followed from the carry, are the walk over the code;
the scans agree on every byte string, and with `IsJumpDest`.
-/

set_option autoImplicit false

namespace EvmZig.Code

open Zig
open Lib (Forward Reaches Visits hop)

/-! ## One group of a block -/

section Block

variable {code : Nat → UInt8} {block : Block} {arch : Arch}

/-- The code read from `base` on. -/
def readFrom (code : Nat → UInt8) (base place : Nat) : UInt8 := code (base + place)

theorem stepAt_shift (code : Nat → UInt8) (base pc : Nat) :
    base + stepAt (readFrom code base) pc = stepAt code (base + pc) := by
  rw [stepAt, stepAt, readFrom]
  omega

theorem group_walked (same : ∀ place : Fin 64, block place = code place) (group : Fin 4) :
    Walked (stepAt (readFrom code (16 * group.val))) 16 16
      (groupWalks arch (block.group group)) :=
  groupWalks_walked _ fun _ => same _

theorem place_split (place : Fin 64) : 16 * (place.val / 16) + place.val % 16 = place.val := by
  omega

theorem walk_leaves (same : ∀ place : Fin 64, block place = code place) (place : Fin 64) :
    (block.walk arch place).leaves.toNat =
      hop (stepAt code) (16 * (place.val / 16) + 16) 16 place := by
  have inside := place.isLt
  have exits := (@group_walked code block arch same ⟨place.val / 16, by omega⟩).exits
    ⟨place.val % 16, Nat.mod_lt _ (by decide)⟩
  have small := @hop_small (readFrom code (16 * (place.val / 16))) 16
    ⟨place.val % 16, Nat.mod_lt _ (by decide)⟩
  have shifted := @Lib.hop_shift _ 16 _ _ (stepAt_shift code (16 * (place.val / 16))) 16
    (place.val % 16)
  dsimp only at exits small
  rw [place_split] at shifted
  rw [Block.walk, UInt8.toNat_add, UInt8.toNat_ofNat', exits, ← shifted]
  dsimp only
  omega

theorem walk_stops (same : ∀ place : Fin 64, block place = code place) (place : Fin 64)
    (bit : Nat) (small : bit < 16) :
    ((if bit < 8 then (block.walk arch place).low.toNat.testBit bit
      else (block.walk arch place).high.toNat.testBit (bit - 8)) = true ↔
        Reaches (stepAt code) place (16 * (place.val / 16) + bit)) := by
  have walked := @group_walked code block arch same ⟨place.val / 16, by omega⟩
  have lane : place.val % 16 < 16 := Nat.mod_lt _ (by decide)
  have visits : Visits (stepAt (readFrom code (16 * (place.val / 16)))) 16 16 (place.val % 16) bit ↔
      Reaches (stepAt code) place (16 * (place.val / 16) + bit) := by
    rw [Visits.reaches (stepAt_forward _) (by omega), and_iff_right small,
      Lib.reaches_shift (stepAt_shift code _), place_split]
  rw [← visits]
  by_cases first : bit < 8
  · rw [if_pos first]
    exact walked.low ⟨_, lane⟩ bit first
  · rw [if_neg first]
    have stops := walked.high ⟨_, lane⟩ (bit - 8) (by omega)
    rwa [Nat.sub_add_cancel (Nat.le_of_not_lt first)] at stops

/-- The stops of a walk as the bits of a mask. -/
theorem stops_getLsbD (low high : UInt8) (bit : Nat) :
    (low.toBitVec.setWidth 64 ||| high.toBitVec.setWidth 64 <<< 8 : Mask).getLsbD bit =
      (decide (bit < 16) &&
        if bit < 8 then low.toNat.testBit bit else high.toNat.testBit (bit - 8)) := by
  have lowBit : low.toBitVec.getLsbD bit = low.toNat.testBit bit := rfl
  have highBit : high.toBitVec.getLsbD (bit - 8) = high.toNat.testBit (bit - 8) := rfl
  simp only [BitVec.getLsbD_or, BitVec.getLsbD_setWidth, BitVec.getLsbD_shiftLeft]
  by_cases first : bit < 8
  · rw [lowBit]
    simp [first, show bit < 64 by omega, show bit < 16 by omega]
  · rw [← lowBit, BitVec.getLsbD_of_ge low.toBitVec bit (by omega)]
    by_cases second : bit < 16
    · rw [highBit]
      simp [first, second, show bit < 64 by omega, show bit - 8 < 64 by omega]
    · rw [BitVec.getLsbD_of_ge high.toBitVec (bit - 8) (by omega)]
      simp [second]

/-! ## One block -/

/-- The walk over a block that begins at `carry`, after as many groups as it has passed. -/
structure Follows (code : Nat → UInt8) (carry groups : Nat) (trail : Trail) : Prop where
  reached : Reaches (stepAt code) carry trail.place
  stops : ∀ bit < 64, trail.opcodes.getLsbD bit = true ↔
    bit < trail.place ∧ Reaches (stepAt code) carry bit
  beyond : ∀ place, Reaches (stepAt code) carry place → place < trail.place → place < 64
  far : 16 * groups ≤ trail.place
  near : trail.place ≤ 96

theorem Follows.start {carry : Nat} (small : carry ≤ 32) : Follows code carry 0 ⟨carry, 0#64⟩ where
  reached := .refl carry
  stops bit _ := by
    dsimp only
    rw [BitVec.getLsbD_zero]
    simp only [Bool.false_eq_true, false_iff, not_and]
    intro before reaches
    have onward := reaches.le (stepAt_forward code)
    omega
  beyond place reaches before := by
    have onward := reaches.le (stepAt_forward code)
    dsimp only at before
    omega
  far := by omega
  near := by
    dsimp only
    omega

theorem and_48 (place : Fin 64) : place.val &&& 48 = 16 * (place.val / 16) := by
  revert place
  decide

/-- A load inside the block adds what the walk passes in its group. -/
theorem follow_inside (same : ∀ place : Fin 64, block place = code place) {trail : Trail}
    (inside : trail.place < 64) :
    (block.follow arch trail).place = hop (stepAt code) (16 * (trail.place / 16) + 16) 16 trail.place ∧
      ∀ bit < 64, (block.follow arch trail).opcodes.getLsbD bit = true ↔
        trail.opcodes.getLsbD bit = true ∨ bit < 16 * (trail.place / 16) + 16 ∧
          Reaches (stepAt code) trail.place bit := by
  have place_eq : trail.place % 64 = trail.place := Nat.mod_eq_of_lt inside
  constructor
  · rw [Block.follow]
    dsimp only
    rw [if_pos inside, walk_leaves same]
    dsimp only
    rw [place_eq]
  · intro bit small
    rw [Block.follow]
    dsimp only
    rw [if_pos inside, BitVec.getLsbD_or, Bool.or_eq_true, BitVec.getLsbD_shiftLeft,
      and_48 ⟨trail.place % 64, Nat.mod_lt _ (by decide)⟩, stops_getLsbD]
    dsimp only
    simp only [place_eq]
    refine or_congr_right ?_
    by_cases before : bit < 16 * (trail.place / 16)
    · simp only [before, decide_true, Bool.not_true, Bool.and_false, Bool.false_and,
        Bool.false_eq_true, false_iff, not_and]
      intro _ reaches
      have onward := reaches.le (stepAt_forward code)
      omega
    · by_cases within : bit - 16 * (trail.place / 16) < 16
      · have stops := @walk_stops code block arch same ⟨trail.place, inside⟩ _ within
        dsimp only at stops
        rw [Nat.add_sub_cancel' (Nat.le_of_not_lt before)] at stops
        simp only [small, before, within, decide_true, decide_false, Bool.not_false, Bool.true_and]
        rw [stops]
        exact ⟨fun reaches => ⟨by omega, reaches⟩, And.right⟩
      · simp only [within, decide_false, Bool.false_and, Bool.and_false, Bool.false_eq_true,
          false_iff, not_and]
        omega

/-- Past the block the loads change nothing. -/
theorem follow_past {trail : Trail} (past : ¬trail.place < 64) :
    block.follow arch trail = trail := by
  rw [Block.follow]
  dsimp only
  rw [if_neg past, if_neg past, BitVec.zero_shiftLeft, BitVec.or_zero]

variable (arch) in
theorem Follows.follow {carry groups : Nat} {trail : Trail}
    (same : ∀ place : Fin 64, block place = code place) (more : groups < 4)
    (follows : Follows code carry groups trail) :
    Follows code carry (groups + 1) (block.follow arch trail) := by
  have forward := stepAt_forward code
  by_cases inside : trail.place < 64
  · obtain ⟨moved, marked⟩ := @follow_inside code block arch same trail inside
    have leaves := @Lib.hop_leaves _ (16 * (trail.place / 16) + 16) trail.place 16 forward (by omega)
    have onward : Reaches (stepAt code) trail.place (block.follow arch trail).place := by
      rw [moved]
      exact Lib.hop_reaches _ _
    -- what the walk passes before the exit lies in the group
    have passes : ∀ place, Reaches (stepAt code) carry place ∧
        place < (block.follow arch trail).place ↔
          place < trail.place ∧ Reaches (stepAt code) carry place ∨
            place < 16 * (trail.place / 16) + 16 ∧ Reaches (stepAt code) trail.place place := by
      intro place
      have first := @Lib.exit_first _ (16 * (trail.place / 16) + 16) trail.place place 16 forward
        (by omega)
      rw [← moved] at first
      have later := onward.le forward
      constructor
      · rintro ⟨reaches, before⟩
        rcases (follows.reached.split forward).mp reaches with early | late
        · exact .inl early
        · obtain ⟨-, -, within⟩ := first.mp ⟨late, before⟩
          exact .inr ⟨within, late⟩
      · rintro (⟨before, reaches⟩ | ⟨within, reaches⟩)
        · exact ⟨reaches, by omega⟩
        · exact ⟨follows.reached.trans reaches, (first.mpr ⟨reaches, by omega, within⟩).2⟩
    exact
      { reached := follows.reached.trans onward
        stops := fun bit small => by
          rw [marked bit small, follows.stops bit small, ← passes, and_comm]
        beyond := fun place reaches before => by
          rcases (passes place).mp ⟨reaches, before⟩ with ⟨early, _⟩ | ⟨within, _⟩
          · exact follows.beyond place reaches early
          · omega
        far := by
          have far := follows.far
          rw [moved]
          omega
        near := by
          rw [moved]
          apply Lib.hop_le
          · intro place below
            have reach := stepAt_le code place
            omega
          · omega }
  · rw [follow_past inside]
    exact { follows with far := by omega }

theorem jumpdests_getLsbD (bit : Nat) (small : bit < 64) :
    block.jumpdests.getLsbD bit = decide (block ⟨bit, small⟩ = Opcode.jumpdest) := by
  have marks : ∀ (places : List (Fin 64)) (mask : Mask),
      (places.foldl (fun mask place =>
        if block place = Opcode.jumpdest then mask ||| 1#64 <<< place.val else mask) mask).getLsbD bit =
        true ↔ mask.getLsbD bit = true ∨
          ⟨bit, small⟩ ∈ places ∧ block ⟨bit, small⟩ = Opcode.jumpdest := by
    intro places
    induction places with
    | nil => simp
    | cons place places ih =>
        intro mask
        have here : (⟨bit, small⟩ : Fin 64) = place ↔ bit = place.val := Fin.ext_iff
        rw [List.foldl_cons, ih, List.mem_cons]
        by_cases found : block place = Opcode.jumpdest
        · have shifted : (1#64 <<< place.val).getLsbD bit = true ↔ bit = place.val := by
            rw [BitVec.getLsbD_shiftLeft, BitVec.getLsbD_one]
            simp only [small, decide_true, Bool.true_and, Bool.and_eq_true, Bool.not_eq_true',
              decide_eq_false_iff_not, decide_eq_true_eq]
            omega
          rw [if_pos found, BitVec.getLsbD_or, Bool.or_eq_true, shifted, ← here]
          grind
        · rw [if_neg found]
          grind
  rw [Bool.eq_iff_iff, Block.jumpdests, marks, BitVec.getLsbD_zero]
  simp

/-- The walk from `start` enters the next block `next` bytes behind its border. -/
structure Enters (code : Nat → UInt8) (start border next : Nat) : Prop where
  small : next ≤ 32
  reached : Reaches (stepAt code) start (border + next)
  first : ∀ place, Reaches (stepAt code) start place → border ≤ place → border + next ≤ place

variable (arch) in
/-- A block shows the jump destinations of its walk, and where the walk enters the next. -/
theorem markBlock_enters (same : ∀ place : Fin 64, block place = code place) {carry : Nat}
    (small : carry ≤ 32) :
    ∃ mask next, markBlock arch block carry = some (mask, next) ∧ Enters code carry 64 next ∧
      ∀ bit < 64, mask.getLsbD bit = true ↔
        code bit = Opcode.jumpdest ∧ Reaches (stepAt code) carry bit := by
  have one := (Follows.start small).follow arch same (by decide)
  have two := one.follow arch same (by decide)
  have three := two.follow arch same (by decide)
  have follows := three.follow arch same (by decide)
  generalize ran : block.follow arch (block.follow arch (block.follow arch
    (block.follow arch ⟨carry, 0#64⟩))) = trail at follows
  have far : 64 ≤ trail.place := follows.far
  refine ⟨block.jumpdests &&& trail.opcodes, trail.place - 64, ?_, ?_, fun bit small => ?_⟩
  · rw [markBlock, ran, subUsize, if_pos far]
    rfl
  · have near := follows.near
    refine ⟨by omega, ?_, fun place reaches late => ?_⟩
    · rw [Nat.add_sub_cancel' far]
      exact follows.reached
    · by_contra before
      have early := follows.beyond place reaches (by omega)
      omega
  · rw [BitVec.getLsbD_and, Bool.and_eq_true, jumpdests_getLsbD bit small, decide_eq_true_eq, same,
      follows.stops bit small, and_iff_right (a := bit < trail.place) (by omega)]

end Block

/-! ## All blocks -/

section Scan

variable {arch : Arch} {bytes : List UInt8} {count index : Nat} {scan : Scan}

/-- The scan after `index` blocks. -/
structure Scanned (bytes : List UInt8) (count index : Nat) (scan : Scan) : Prop where
  length : scan.masks.length = count
  enters : Enters (padded bytes) 0 (64 * index) scan.carry
  marks : ∀ place, isSet scan.masks place = true ↔ place < 64 * index ∧
    padded bytes place = Opcode.jumpdest ∧ Reaches (stepAt (padded bytes)) 0 place

theorem isSet_zeros (count place : Nat) : isSet (List.replicate count 0#64) place = false := by
  rw [isSet, List.getD_eq_getElem?_getD, List.getElem?_replicate]
  split <;> exact BitVec.getLsbD_zero

theorem Scanned.start : Scanned bytes count 0 ⟨List.replicate count 0#64, 0⟩ where
  length := List.length_replicate
  enters :=
    { small := Nat.zero_le _
      reached := .refl 0
      first := fun place _ _ => Nat.zero_le place }
  marks place := by
    rw [isSet_zeros]
    simp

theorem blockAt_same (bytes : List UInt8) (index : Nat) (place : Fin 64) :
    blockAt bytes index place = readFrom (padded bytes) (64 * index) place := by
  rw [blockAt, readFrom, padded, Nat.mul_comm]

/-- Below the border the walk is done; behind it, it goes on from the carry. -/
theorem Enters.split {code : Nat → UInt8} {border next place : Nat}
    (enters : Enters code 0 border next) (late : border ≤ place) :
    Reaches (stepAt code) 0 place ↔ Reaches (stepAt code) (border + next) place := by
  rw [enters.reached.split (stepAt_forward code)]
  constructor
  · rintro (⟨before, reaches⟩ | reaches)
    · exact absurd (enters.first place reaches late) (Nat.not_le.mpr before)
    · exact reaches
  · exact .inr

theorem Enters.next {code : Nat → UInt8} {border carry next : Nat}
    (enters : Enters code 0 border carry) (onward : Enters (readFrom code border) carry 64 next) :
    Enters code 0 (border + 64) next where
  small := onward.small
  reached := by
    have moved := (Lib.reaches_shift (stepAt_shift code border)).mp onward.reached
    rw [← Nat.add_assoc] at moved
    exact enters.reached.trans moved
  first place reaches late := by
    rw [enters.split (by omega)] at reaches
    obtain ⟨behind, rfl⟩ : ∃ behind, place = border + behind := ⟨place - border, by omega⟩
    rw [← Lib.reaches_shift (stepAt_shift code border)] at reaches
    have first := onward.first behind reaches (by omega)
    omega

variable (arch) in
theorem scanBlock_scanned (scanned : Scanned bytes count index scan) (inside : index < count) :
    ∃ after, scanBlock arch bytes scan index = some after ∧ Scanned bytes count (index + 1) after := by
  obtain ⟨mask, next, ran, onward, bits⟩ := markBlock_enters arch
    (blockAt_same bytes index) scanned.enters.small
  have room : index < scan.masks.length := scanned.length ▸ inside
  refine ⟨⟨scan.masks.set index mask, next⟩, ?_, ?_⟩
  · rw [scanBlock, assert, if_pos room, ran]
    rfl
  · refine ⟨?_, scanned.enters.next onward, fun place => ?_⟩
    · exact List.length_set.trans scanned.length
    · dsimp only
      rw [isSet, List.getD_eq_getElem?_getD, List.getElem?_set]
      by_cases here : index = place / 64
      · have late : 64 * index ≤ place := by omega
        have bit := bits (place % 64) (Nat.mod_lt _ (by decide))
        have split : 64 * index + place % 64 = place := by omega
        rw [Lib.reaches_shift (stepAt_shift (padded bytes) (64 * index)), readFrom, split,
          ← scanned.enters.split late] at bit
        rw [if_pos here, if_pos room, Option.getD_some, bit, and_iff_right (a := place < _) (by omega)]
      · have held := scanned.marks place
        rw [isSet, List.getD_eq_getElem?_getD] at held
        rw [if_neg here, held]
        refine and_congr_left fun _ => ?_
        omega

theorem scanBlocks_scanned (arch : Arch) (bytes : List UInt8) (inside : index ≤ count) :
    ∃ scan, (List.range index).foldlM (scanBlock arch bytes) ⟨List.replicate count 0#64, 0⟩ = some scan ∧
      Scanned bytes count index scan := by
  induction index with
  | zero => exact ⟨_, rfl, .start⟩
  | succ index ih =>
      obtain ⟨scan, ran, scanned⟩ := ih (Nat.le_of_succ_le inside)
      obtain ⟨after, stepped, next⟩ := scanBlock_scanned arch scanned inside
      refine ⟨after, ?_, next⟩
      rw [List.range_succ, List.foldlM_append, ran]
      simp only [Option.bind_eq_bind, Option.bind_some, List.foldlM_cons, List.foldlM_nil, stepped]
      rfl

/-- The masks hold exactly the jump destinations of the code. -/
def Exact (bytes : List UInt8) (count : Nat) (masks : List Mask) : Prop :=
  masks.length = count ∧ ∀ pc, isSet masks pc = true ↔ IsJumpDest bytes pc

theorem Scanned.exact (scanned : Scanned bytes count index scan) (all : bytes.length ≤ 64 * index) :
    Exact bytes count scan.masks := by
  refine ⟨scanned.length, fun pc => ?_⟩
  rw [scanned.marks, isJumpDest_iff]
  refine and_iff_right_of_imp fun jumps => ?_
  have inside : pc < bytes.length := by
    by_contra outside
    rw [← isJumpDest_iff, IsJumpDest, List.getElem?_eq_none (by omega)] at jumps
    cases jumps.1
  omega

theorem Marks.exact {masks : List Mask}
    (marks : Marks bytes 0 (List.replicate count 0#64) masks) : Exact bytes count masks := by
  refine ⟨marks.1.trans List.length_replicate, fun pc => ?_⟩
  rw [marks.2, isSet_zeros, isJumpDest_iff]
  simp

theorem Exact.unique {left right : List Mask} (one : Exact bytes count left)
    (other : Exact bytes count right) : left = right := by
  apply List.ext_getElem (one.1.trans other.1.symm)
  intro index inside within
  apply BitVec.eq_of_getLsbD_eq
  intro bit small
  have same : isSet left (64 * index + bit) = isSet right (64 * index + bit) := by
    rw [Bool.eq_iff_iff, one.2, other.2]
  have word : (64 * index + bit) / 64 = index := by omega
  have low : (64 * index + bit) % 64 = bit := by omega
  rwa [isSet, isSet, word, low, List.getD_eq_getElem?_getD, List.getD_eq_getElem?_getD,
    List.getElem?_eq_getElem inside, List.getElem?_eq_getElem within] at same

theorem markJumpDestBlocks_exact (arch : Arch) (room : bytes.length ≤ 64 * count) :
    ∃ masks, markJumpDestBlocks arch (List.replicate count 0#64) bytes = some masks ∧
      Exact bytes count masks := by
  obtain ⟨scan, ran, scanned⟩ := @scanBlocks_scanned count (bytes.length / 64) arch bytes (by omega)
  rw [markJumpDestBlocks, ran]
  by_cases tail : bytes.length % 64 = 0
  · refine ⟨scan.masks, ?_, scanned.exact (by omega)⟩
    simp [tail]
  · obtain ⟨after, stepped, next⟩ := scanBlock_scanned arch scanned (by omega)
    refine ⟨after.masks, ?_, next.exact (by omega)⟩
    simp [tail, stepped]

end Scan

/-- The walks of a group at which the rounds look up. -/
def lookedUp (arch : Arch) (bytes : Lanes) : List GroupWalks :=
  let one := firstWalks bytes
  let two := doubled arch true one
  let four := doubled arch true two
  [one, two, four, doubled arch true four]

theorem lookedUp_small (arch : Arch) (bytes : Lanes) :
    ∀ walks ∈ lookedUp arch bytes, ∀ lane, (walks.exits lane).toNat ≤ 48 := by
  obtain ⟨code, same⟩ : ∃ code : Nat → UInt8, ∀ lane : Fin 16, bytes lane = code lane :=
    ⟨fun place => if inside : place < 16 then bytes ⟨place, inside⟩ else 0,
      fun lane => by simp⟩
  have one := firstWalks_walked bytes same
  have two := one.doubled arch
  have four := two.doubled arch
  have eight := four.doubled arch
  intro walks member lane
  simp only [lookedUp, List.mem_cons, List.not_mem_nil, or_false] at member
  rcases member with rfl | rfl | rfl | rfl
  · exact one.exits lane ▸ hop_small lane
  · exact two.exits lane ▸ hop_small lane
  · exact four.exits lane ▸ hop_small lane
  · exact eight.exits lane ▸ hop_small lane

/-- On zeroed masks that cover the code, all scans return, and mark exactly its jump
destinations; every carry is at most 32, and every lookup index is one the tables serve. -/
theorem jumpDestScans_exact (bytes : List UInt8) (count : Nat) (room : bytes.length ≤ 64 * count) :
    (∃ masks, markJumpDestWords (List.replicate count 0#64) bytes = some masks ∧
      referenceMark (List.replicate count 0#64) bytes = some masks ∧
      (∀ arch, markJumpDestBlocks arch (List.replicate count 0#64) bytes = some masks) ∧
      masks.length = count ∧ ∀ pc, isSet masks pc = true ↔ IsJumpDest bytes pc) ∧
    (∀ arch, ∀ index ≤ count, ∃ scan, (List.range index).foldlM (scanBlock arch bytes)
      ⟨List.replicate count 0#64, 0⟩ = some scan ∧ scan.carry ≤ 32) ∧
    ∀ arch group, ∀ walks ∈ lookedUp arch group, ∀ lane, (walks.exits lane).toNat ≤ 143 := by
  have zeroed : bytes.length ≤ 64 * (List.replicate count 0#64).length := by
    rwa [List.length_replicate]
  obtain ⟨words, ranWords, marksWords⟩ := @wordsFrom_marks bytes 0 _ zeroed
  obtain ⟨serial, ranSerial, marksSerial⟩ := @referenceFrom_marks bytes 0 _ zeroed
  refine ⟨⟨words, ranWords, ?_, fun arch => ?_, marksWords.exact⟩, ?_, ?_⟩
  · rw [referenceMark, ranSerial, marksSerial.exact.unique marksWords.exact]
  · obtain ⟨blocks, ranBlocks, exact⟩ := markJumpDestBlocks_exact arch room
    rw [ranBlocks, exact.unique marksWords.exact]
  · intro arch index inside
    obtain ⟨scan, ran, scanned⟩ := scanBlocks_scanned arch bytes inside
    exact ⟨scan, ran, scanned.enters.small⟩
  · intro arch group walks member lane
    exact Nat.le_trans (lookedUp_small arch group walks member lane) (by decide)

/-- `PUSH1 0x5b JUMPDEST`: the immediate is no destination. -/
theorem jumpDestScans_exact_push :
    ([0x60, 0x5b, 0x5b] : List UInt8).length ≤ 64 * 1 ∧
      ∃ masks, (∀ arch, markJumpDestBlocks arch [0#64] [0x60, 0x5b, 0x5b] = some masks) ∧
        ∀ pc, isSet masks pc = true ↔ IsJumpDest [0x60, 0x5b, 0x5b] pc := by
  obtain ⟨⟨masks, -, -, blocks, -, exact⟩, -⟩ :=
    jumpDestScans_exact [0x60, 0x5b, 0x5b] 1 (by decide)
  exact ⟨by decide, masks, blocks, exact⟩

end EvmZig.Code
