import EvmZig.Precompile.ModexpGas

/-!
# Modexp calls are exact

The words, the exponent head and the operands are stretches of the input extended
with zeros.  A call that pays its price allocates only after the charge.
-/

set_option autoImplicit false

namespace EvmZig.Precompile

open Zig

/-! ## The extended input -/

/-- `count` bytes from `start` on of the input, extended with zeros. -/
def extended (input : List UInt8) (start count : Nat) : List UInt8 :=
  (List.range count).map fun place => input.getD (start + place) 0

theorem extended_length (input : List UInt8) (start count : Nat) :
    (extended input start count).length = count := by
  rw [extended, List.length_map, List.length_range]

theorem extended_beyond {input : List UInt8} {start : Nat} (beyond : input.length ≤ start)
    (count : Nat) : extended input start count = zeros count := by
  rw [extended, zeros, List.eq_replicate_iff, List.length_map, List.length_range]
  refine ⟨rfl, fun byte member => ?_⟩
  obtain ⟨place, -, rfl⟩ := List.mem_map.mp member
  exact List.getD_eq_default _ _ (by omega)

/-- What lies inside the input, and zeros. -/
theorem extended_split {input : List UInt8} {start : Nat} (inside : start ≤ input.length)
    (count : Nat) :
    extended input start count =
      (input.drop start).take count ++ zeros (count - min count (input.length - start)) := by
  apply List.ext_getElem
  · rw [extended_length, List.length_append, List.length_take, List.length_drop, zeros,
      List.length_replicate]
    omega
  · intro place small _
    rw [extended_length] at small
    rw [List.getElem_append]
    simp only [extended, zeros, List.getElem_map, List.getElem_range, List.getElem_take,
      List.getElem_drop, List.getElem_replicate, List.length_take, List.length_drop]
    split
    · exact List.getD_eq_getElem _ _ (by omega)
    · exact List.getD_eq_default _ _ (by omega)

theorem beValue_zeros (count : Nat) : beValue (zeros count) = 0 := by
  induction count with
  | zero => rfl
  | succ count ih =>
      rw [zeros] at ih ⊢
      rw [List.replicate_succ', beValue_append_singleton, ih]
      rfl

theorem beValue_zeros_append (count : Nat) (bytes : List UInt8) :
    beValue (zeros count ++ bytes) = beValue bytes := by
  rw [beValue_append, beValue_zeros, Nat.zero_mul, Nat.zero_add]

/-! ## Copies from the input -/

section Copies

variable {input : Slice} {offset : Nat}

theorem window_bytes (count : Nat) :
    (input.window offset (offset + min count (input.len - offset))).bytes =
      (input.bytes.drop offset).take count := by
  rw [Slice.window]
  dsimp only
  rw [List.drop_take, Nat.add_sub_cancel_left, List.take_eq_take_iff, List.length_drop]
  rw [Slice.len]
  omega

/-- The steps of a copy of `count` bytes at `start`, all of them in range. -/
structure Copied (input : Slice) (offset start count : Nat) : Prop where
  rest : subUsize input.len offset = some (input.len - offset)
  stop : addUsize offset (min count (input.len - offset)) =
    some (offset + min count (input.len - offset))
  part : input.sub offset (offset + min count (input.len - offset)) =
    some (input.window offset (offset + min count (input.len - offset)))
  written : copyInto (zeros (start + count)) start
    (input.window offset (offset + min count (input.len - offset))).bytes =
      some (zeros start ++ extended input.bytes offset count)

theorem copied (inside : offset < input.len) (start count : Nat) :
    Copied input offset start count := by
  have fits := input.len_le
  have within : offset + min count (input.len - offset) ≤ input.len := by omega
  refine ⟨subUsize_eq (Nat.le_of_lt inside), addUsize_eq (Nat.le_trans within fits),
    Slice.sub_eq _ (Nat.le_add_right _ _) within, ?_⟩
  have length : ((input.bytes.drop offset).take count).length = min count (input.len - offset) := by
    rw [List.length_take, List.length_drop, Slice.len]
  rw [window_bytes, copyInto, length, extended_split (Nat.le_of_lt inside)]
  rw [if_pos (by
    rw [zeros, List.length_replicate]
    omega)]
  rw [zeros, List.take_replicate, List.drop_replicate, ← zeros, ← zeros, List.append_assoc,
    Nat.min_eq_left (Nat.le_add_right start count)]
  have rest : start + count - (start + min count (input.len - offset)) =
      count - min count (input.bytes.length - offset) := by
    rw [Slice.len]
    omega
  rw [rest]

theorem paddedWord_eq (input : Slice) {wordIndex : Nat} (small : wordIndex < 3) :
    paddedWord input wordIndex = some (extended input.bytes (wordIndex * 32) 32) := by
  rw [paddedWord, mulTrap_eq (by omega), Option.bind_eq_bind, Option.bind_some]
  by_cases inside : wordIndex * 32 < input.len
  · obtain ⟨rest, stop, part, written⟩ := copied inside 0 32
    rw [if_neg (Nat.not_le_of_lt inside), rest, Option.bind_eq_bind, Option.bind_some, stop,
      Option.bind_some, part, Option.bind_some]
    exact written
  · rw [if_pos (Nat.le_of_not_lt inside), extended_beyond (Nat.le_of_not_lt inside)]
    rfl

/-- The leading bytes of the exponent, at most 32. -/
def exponentHead (input : Slice) (baseLen exponentLen : Nat) : Nat :=
  beValue (extended input.bytes (96 + baseLen) (min exponentLen 32))

theorem exponentHead_lt (input : Slice) (baseLen exponentLen : Nat) :
    exponentHead input baseLen exponentLen < 2 ^ 256 := by
  have below := beValue_lt (extended input.bytes (96 + baseLen) (min exponentLen 32))
  rw [extended_length] at below
  have wide : 256 ^ min exponentLen 32 ≤ 256 ^ 32 :=
    Nat.pow_le_pow_right (by decide) (Nat.min_le_right _ _)
  exact Nat.lt_of_lt_of_le below (Nat.le_trans wide (by norm_num))

theorem modexpExponentHead_eq (input : Slice) (baseLen exponentLen : Nat) :
    modexpExponentHead input (96 + baseLen) exponentLen =
      some (exponentHead input baseLen exponentLen) := by
  have fits := input.len_le
  rw [modexpExponentHead, exponentHead]
  by_cases inside : 96 + baseLen < input.len
  · rw [if_neg (by omega)]
    by_cases none : exponentLen = 0
    · rw [if_pos (.inr none), none]
      rfl
    rw [if_neg (by omega)]
    by_cases short : exponentLen ≤ 32
    · obtain ⟨rest, stop, part, written⟩ := copied inside (32 - exponentLen) exponentLen
      rw [Nat.sub_add_cancel short] at written
      rw [rest, Option.bind_eq_bind, Option.bind_some, if_pos short, subUsize_eq short,
        Option.bind_eq_bind, Option.bind_some, stop, Option.bind_some, part, Option.bind_some,
        written, Option.bind_eq_bind, Option.bind_some, beValue_zeros_append, Nat.min_eq_left short]
      rfl
    · obtain ⟨rest, stop, part, written⟩ := copied inside 0 32
      rw [rest, Option.bind_eq_bind, Option.bind_some, if_neg short, stop, Option.bind_eq_bind,
        Option.bind_some, part, Option.bind_some]
      rw [Nat.zero_add] at written
      rw [written, Option.bind_eq_bind, Option.bind_some, beValue_zeros_append,
        Nat.min_eq_right (Nat.le_of_not_le short)]
      rfl
  · rw [extended_beyond (Nat.le_of_not_lt inside), beValue_zeros]
    split
    · rfl
    · rw [if_pos (.inl (Nat.le_of_not_lt inside))]

end Copies

/-! ## Allocations -/

section Allocations

variable {host : Host} {input : Slice} {events : List Event} {offset len : Nat}

/-- A run that allocates these lengths and ends with this answer, none for a lack of memory, or one
that the allocator stops before. -/
def Allocates {α : Type} (host : Host) (events : List Event) (lens : List Nat) (answer : Option α) :
    Outcome (List Event) Error α → Prop
  | .ok result after => answer = some result ∧ after = events ++ lens.map .allocated
  | .fail .outOfMemory after =>
      (answer = none ∧ after = events ++ lens.map .allocated) ∨
        ∃ granted refused rest, lens = granted ++ refused :: rest ∧
          after = events ++ granted.map .allocated ∧ host.grants after refused = false
  | .illegal => False

theorem allocZeros_allocates (host : Host) (len : Nat) (events : List Event) :
    Allocates host events [len] (some (zeros len)) (allocZeros host len events) := by
  rw [allocZeros]
  cases granted : host.grants events len with
  | true => exact ⟨rfl, rfl⟩
  | false => exact .inr ⟨[], len, [], rfl, (List.append_nil _).symm, granted⟩

theorem Allocates.bind {α β : Type} {first : Run α} {next : α → Run β} {value : α}
    {answer : Option β} {lens more : List Nat}
    (ran : Allocates host events lens (some value) (first events))
    (rest : ∀ events, Allocates host events more answer (next value events)) :
    Allocates host events (lens ++ more) answer ((first >>= next) events) := by
  rw [Action.bind_run]
  cases outcome : first events with
  | illegal =>
      rw [outcome] at ran
      exact ran
  | fail error after =>
      cases error
      rw [outcome] at ran
      obtain ⟨⟨⟩, -⟩ | ⟨granted, refused, remaining, split, same, stopped⟩ := ran
      refine .inr ⟨granted, refused, remaining ++ more, ?_, same, stopped⟩
      rw [split, List.append_assoc, List.cons_append]
  | ok found after =>
      rw [outcome] at ran
      obtain ⟨⟨⟩, rfl⟩ := ran
      have going := rest (events ++ lens.map .allocated)
      have joined : events ++ lens.map .allocated ++ more.map .allocated =
          events ++ (lens ++ more).map .allocated := by
        rw [List.map_append, List.append_assoc]
      dsimp only
      cases ended : next value (events ++ lens.map .allocated) with
      | illegal =>
          rw [ended] at going
          exact going
      | fail error after =>
          cases error
          rw [ended] at going
          rcases going with ⟨unanswered, rfl⟩ | ⟨granted, refused, remaining, split, same, stopped⟩
          · exact .inl ⟨unanswered, joined⟩
          · refine .inr ⟨lens ++ granted, refused, remaining, ?_, ?_, stopped⟩
            · rw [split, List.append_assoc]
            · rw [same, List.map_append, List.append_assoc]
      | ok result after =>
          rw [ended] at going
          obtain ⟨answered, rfl⟩ := going
          exact ⟨answered, joined⟩

theorem some_bind {α β : Type} (value : α) (next : α → Run β) :
    ((liftM (some value : Option α) : Run α) >>= next) = next value := rfl

theorem paddedBytes_allocates (host : Host) (input : Slice) (offset len : Nat)
    (events : List Event) :
    Allocates host events [len] (some (extended input.bytes offset len))
      (paddedBytes host input offset len events) := by
  have alone : [len] = [len] ++ [] := rfl
  rw [paddedBytes, alone]
  refine (allocZeros_allocates host len events).bind fun events => ?_
  by_cases inside : offset < input.len
  · obtain ⟨rest, stop, part, written⟩ := copied inside 0 len
    rw [Nat.zero_add] at written
    rw [if_pos inside, rest, some_bind, stop, some_bind, part, some_bind, written]
    exact ⟨rfl, (List.append_nil _).symm⟩
  · rw [if_neg inside, extended_beyond (Nat.le_of_not_lt inside)]
    exact ⟨rfl, (List.append_nil _).symm⟩

/-! ## The operation -/

/-- What a paid call answers; none where the backend runs out of memory. -/
def answer (host : Host) (gasLeft : Int) (modulusLen : Nat)
    (baseBytes exponentBytes modulusBytes : List UInt8) : Option Result :=
  if modulusBytes.all (· = 0) then some (successOutput (zeros modulusLen) gasLeft)
  else
    match host.backend baseBytes exponentBytes modulusBytes with
    | .ok output => some (successOutput output gasLeft)
    | .invalid => some (emptyResult .failure)
    | .oom => none

theorem runBackend_allocates (host : Host) (input : Slice) (gasLeft : Int)
    (baseLen exponentLen modulusLen exponentOffset modulusOffset : Nat) (events : List Event) :
    Allocates host events [baseLen, exponentLen, modulusLen, modulusLen]
      (answer host gasLeft modulusLen (extended input.bytes 96 baseLen)
        (extended input.bytes exponentOffset exponentLen)
        (extended input.bytes modulusOffset modulusLen))
      (runBackend host input gasLeft baseLen exponentLen modulusLen exponentOffset modulusOffset
        events) := by
  rw [runBackend, answer]
  refine (paddedBytes_allocates host input 96 baseLen events).bind fun events => ?_
  refine (paddedBytes_allocates host input exponentOffset exponentLen events).bind fun events => ?_
  refine (paddedBytes_allocates host input modulusOffset modulusLen events).bind fun events => ?_
  refine Allocates.bind (allocZeros_allocates host modulusLen events) fun events => ?_
  have alone : events = events ++ [].map Event.allocated := (List.append_nil _).symm
  split
  · exact ⟨rfl, alone⟩
  · cases host.backend (extended input.bytes 96 baseLen)
        (extended input.bytes exponentOffset exponentLen)
        (extended input.bytes modulusOffset modulusLen) with
    | ok output => exact ⟨rfl, alone⟩
    | invalid => exact ⟨rfl, alone⟩
    | oom => exact .inl ⟨rfl, alone⟩

theorem castUsize_eq {value : Nat} (fits : value ≤ usizeMax) : castUsize value = .ok value :=
  if_pos fits

/-- A paid call without a modulus is done; one whose offsets are addresses runs; one whose offsets
are not is out of gas. -/
theorem modexpCharged_cases (host : Host) (input : Slice) (gasLeft : Int)
    {baseLen exponentLen modulusLen : Nat} (modulusFits : modulusLen ≤ usizeMax)
    (events : List Event) :
    (modulusLen = 0 → modexpCharged host input baseLen exponentLen modulusLen gasLeft events =
      .ok ⟨.success, [], gasLeft⟩ events) ∧
    (modulusLen ≠ 0 → 96 + baseLen + exponentLen ≤ usizeMax →
      Allocates host events [baseLen, exponentLen, modulusLen, modulusLen]
        (answer host gasLeft modulusLen (extended input.bytes 96 baseLen)
          (extended input.bytes (96 + baseLen) exponentLen)
          (extended input.bytes (96 + baseLen + exponentLen) modulusLen))
        (modexpCharged host input baseLen exponentLen modulusLen gasLeft events)) ∧
    (modulusLen ≠ 0 → usizeMax < 96 + baseLen + exponentLen →
      modexpCharged host input baseLen exponentLen modulusLen gasLeft events =
        .ok (emptyResult .outOfGas) events) := by
  rw [modexpCharged, castUsize_eq modulusFits, orOutOfGas]
  refine ⟨fun none => ?_, fun some reach => ?_, fun some far => ?_⟩
  · rw [if_pos none]
    rfl
  · rw [if_neg some, castUsize_eq (by omega), orOutOfGas, castUsize_eq (by omega), orOutOfGas,
      addUsize_eq (by omega), orNull, orOutOfGas, addUsize_eq reach, orNull, orOutOfGas]
    exact runBackend_allocates host input gasLeft _ _ _ _ _ events
  · rw [if_neg some]
    by_cases baseFits : baseLen ≤ usizeMax
    · rw [castUsize_eq baseFits, orOutOfGas]
      by_cases exponentFits : exponentLen ≤ usizeMax
      · rw [castUsize_eq exponentFits, orOutOfGas]
        by_cases offsetFits : 96 + baseLen ≤ usizeMax
        · rw [addUsize_eq offsetFits, orNull, orOutOfGas, addUsize, if_neg (Nat.not_le_of_lt far)]
          rfl
        · rw [addUsize, if_neg offsetFits]
          rfl
      · rw [castUsize, if_neg exponentFits]
        rfl
    · rw [castUsize, if_neg baseFits]
      rfl

end Allocations

/-! ## Whole calls -/

/-- The lengths that an input declares. -/
def declared (input : Slice) (wordIndex : Nat) : Nat :=
  beValue (extended input.bytes (wordIndex * 32) 32)

theorem declared_lt (input : Slice) (wordIndex : Nat) : declared input wordIndex < 2 ^ 256 := by
  have below := beValue_lt (extended input.bytes (wordIndex * 32) 32)
  rw [extended_length] at below
  exact Nat.lt_of_lt_of_le below (by norm_num)

/-- The unbounded cost of an input. -/
def inputCost (pricing : ModexpPricing) (input : Slice) : Nat :=
  modexpCost pricing (max (declared input 0) (declared input 2)) (declared input 1)
    (exponentHead input (declared input 0) (declared input 1))

def WithinLimit (limit : Option Nat) (input : Slice) : Prop :=
  ∀ maximum, limit = some maximum → modexpLengthsWithinLimit (declared input 0) (declared input 1)
    (declared input 2) maximum

section Calls

variable {host : Host} {pricing : ModexpPricing} {limit : Option Nat} {call : Call}

theorem within_eq (limit : Option Nat) (input : Slice) :
    (match limit with
      | some maximum => decide (modexpLengthsWithinLimit (declared input 0) (declared input 1)
          (declared input 2) maximum)
      | none => true) = true ↔ WithinLimit limit input := by
  cases limit with
  | none => exact ⟨fun _ maximum held => (by cases held), fun _ => rfl⟩
  | some maximum =>
      refine decide_eq_true_iff.trans ⟨?_, fun within => within maximum rfl⟩
      rintro within _ ⟨⟩
      exact within

/-- A call over the maximum stops before it is priced. -/
theorem modexp_over_limit (beyond : ¬ WithinLimit limit call.inputData) :
    modexp host { configOf pricing with modexpMaxInputLen := limit } call [] =
      .ok (emptyResult .outOfGas) [] := by
  rw [← within_eq, Bool.not_eq_true] at beyond
  rw [modexp, paddedWord_eq _ (by decide), paddedWord_eq _ (by decide), paddedWord_eq _ (by decide)]
  exact congrArg (fun run : Run Result => run []) (if_pos beyond)

/-- The offset of the exponent overflows only where no gas pays the price. -/
theorem modexp_priced (within : WithinLimit limit call.inputData) :
    (i64Max < (inputCost pricing call.inputData : Int) ∧
      modexp host { configOf pricing with modexpMaxInputLen := limit } call [] =
        .ok (emptyResult .outOfGas) []) ∨
    modexp host { configOf pricing with modexpMaxInputLen := limit } call [] =
      charge call.gas (inputCost pricing call.inputData)
        (modexpCharged host call.inputData (declared call.inputData 0) (declared call.inputData 1)
          (declared call.inputData 2)) [] := by
  rw [← within_eq] at within
  have opened : modexp host { configOf pricing with modexpMaxInputLen := limit } call [] =
      orOutOfGas (checkedAdd 96 (declared call.inputData 0)) (fun exponentOffset => do
        let exponentHead ← modexpExponentHead call.inputData exponentOffset
          (declared call.inputData 1)
        orOutOfGas (modexpGas { configOf pricing with modexpMaxInputLen := limit }
            (declared call.inputData 0) (declared call.inputData 1) (declared call.inputData 2)
            exponentHead) fun cost =>
          charge call.gas cost (modexpCharged host call.inputData (declared call.inputData 0)
            (declared call.inputData 1) (declared call.inputData 2))) [] := by
    rw [modexp, paddedWord_eq _ (by decide), paddedWord_eq _ (by decide), paddedWord_eq _ (by decide)]
    refine congrArg (fun run : Run Result => run []) (if_neg ?_)
    exact fun out => Bool.false_ne_true (out.symm.trans within)
  rw [opened, i64Max_eq]
  rcases @checkedAdd_computes 96 (declared call.inputData 0) with ran | ⟨ran, large⟩
  · rw [ran, orOutOfGas, modexpExponentHead_eq]
    have price := @modexpGas_computes (declared call.inputData 1)
      (exponentHead call.inputData (declared call.inputData 0) (declared call.inputData 1)) pricing
      limit _ _ (declared_lt call.inputData 0) (declared_lt call.inputData 2) (exponentHead_lt _ _ _)
    rcases price with ran | ⟨ran, large⟩
    · refine .inr ?_
      rw [some_bind, ran]
      rfl
    · refine .inl ⟨?_, ?_⟩
      · rw [inputCost]
        omega
      · rw [some_bind, ran]
        rfl
  · refine .inl ⟨?_, ?_⟩
    · by_contra cheap
      have paid : inputCost pricing call.inputData < 2 ^ 63 := by omega
      have short := maxLen_le_of_cost pricing paid
      omega
    · rw [ran]
      rfl

/-- A call is out of gas where its cost is beyond the gas or a length beyond the maximum.  Else it
charges exactly the cost, and then allocates its operands and answers; under EIP-198 alone a paid
exponent may be so long that no address reaches the modulus. -/
theorem modexp_exact (host : Host) (pricing : ModexpPricing) (limit : Option Nat) (call : Call) :
    (¬ (WithinLimit limit call.inputData ∧ (inputCost pricing call.inputData : Int) ≤ call.gas) →
      modexp host { configOf pricing with modexpMaxInputLen := limit } call [] =
        .ok (emptyResult .outOfGas) []) ∧
    (WithinLimit limit call.inputData → (inputCost pricing call.inputData : Int) ≤ call.gas →
      (declared call.inputData 2 = 0 →
        modexp host { configOf pricing with modexpMaxInputLen := limit } call [] =
          .ok ⟨.success, [], call.gas - inputCost pricing call.inputData⟩
            [.charged (inputCost pricing call.inputData)]) ∧
      (declared call.inputData 2 ≠ 0 →
        96 + declared call.inputData 0 + declared call.inputData 1 ≤ usizeMax →
        Allocates host [.charged (inputCost pricing call.inputData)]
          [declared call.inputData 0, declared call.inputData 1, declared call.inputData 2,
            declared call.inputData 2]
          (answer host (call.gas - inputCost pricing call.inputData) (declared call.inputData 2)
            (extended call.inputData.bytes 96 (declared call.inputData 0))
            (extended call.inputData.bytes (96 + declared call.inputData 0)
              (declared call.inputData 1))
            (extended call.inputData.bytes
              (96 + declared call.inputData 0 + declared call.inputData 1)
              (declared call.inputData 2)))
          (modexp host { configOf pricing with modexpMaxInputLen := limit } call [])) ∧
      (declared call.inputData 2 ≠ 0 →
        usizeMax < 96 + declared call.inputData 0 + declared call.inputData 1 →
        pricing = .eip198 ∧
          modexp host { configOf pricing with modexpMaxInputLen := limit } call [] =
            .ok (emptyResult .outOfGas) [.charged (inputCost pricing call.inputData)])) := by
  obtain ⟨input, gas, gasFits⟩ := call
  have most := gasFits.2
  constructor
  · intro refused
    by_cases within : WithinLimit limit input
    · rcases @modexp_priced host pricing limit ⟨input, gas, gasFits⟩ within with ⟨-, ran⟩ | ran
      · exact ran
      · rw [ran, charge, if_pos (by
          by_contra enough
          exact refused ⟨within, Int.not_lt.mp enough⟩)]
        rfl
    · exact modexp_over_limit within
  · intro within paid
    replace paid : (inputCost pricing input : Int) ≤ gas := paid
    have ran : modexp host { configOf pricing with modexpMaxInputLen := limit }
        ⟨input, gas, gasFits⟩ [] =
        modexpCharged host input (declared input 0) (declared input 1) (declared input 2)
          (gas - inputCost pricing input) [.charged (inputCost pricing input)] := by
      rcases @modexp_priced host pricing limit ⟨input, gas, gasFits⟩ within with ⟨large, -⟩ | ran
      · exact absurd (Int.le_trans paid most) (Int.not_le.mpr large)
      · have left : FitsI64 (gas - inputCost pricing input) := by
          rw [FitsI64, i64Min_eq, i64Max_eq] at *
          omega
        rw [ran, charge, if_neg (Int.not_lt.mpr paid), subI64_eq left]
        rfl
    have cheap : inputCost pricing input < 2 ^ 63 := by
      rw [i64Max_eq] at most
      omega
    have operands := maxLen_le_of_cost pricing cheap
    have modulusFits : declared input 2 ≤ usizeMax := by
      rw [usizeMax_eq]
      omega
    obtain ⟨empty, reached, unreached⟩ := @modexpCharged_cases host input
      (gas - inputCost pricing input) (declared input 0) (declared input 1) (declared input 2)
      modulusFits [.charged (inputCost pricing input)]
    dsimp only
    rw [ran]
    refine ⟨empty, reached, fun some far => ⟨?_, unreached some far⟩⟩
    by_contra later
    have short := exponentLen_le_of_cost later (by omega) cheap
    rw [usizeMax_eq] at far
    omega

end Calls

/-- `2 ^ 64` bytes of an exponent, and one of a modulus. -/
def sampleInput : Slice :=
  ⟨zeros 55 ++ [1] ++ zeros 39 ++ [1], by decide⟩

/-- A gas amount that pays for the exponent runs out of gas. -/
theorem modexp_unreached :
    declared sampleInput 0 = 0 ∧ declared sampleInput 1 = 2 ^ 64 ∧ declared sampleInput 2 = 1 ∧
      (inputCost .eip198 sampleInput : Int) ≤ i64Max ∧
      modexp ⟨fun _ _ => true, fun _ _ _ => .invalid⟩ byzantiumConfig
        ⟨sampleInput, i64Max, by decide⟩ [] =
          .ok (emptyResult .outOfGas) [.charged (inputCost .eip198 sampleInput)] := by
  decide +kernel

end EvmZig.Precompile
