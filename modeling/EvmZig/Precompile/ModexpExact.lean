import EvmZig.Precompile.ModexpLimbs
import EvmZig.Precompile.ModexpWords

/-!
# Modular exponentiation is exact

Every path writes the power, big-endian and padded to the length of the modulus;
the paths that allocate fail only where the allocator refuses.
-/

set_option autoImplicit false

namespace EvmZig.Modexp

open Zig Uint256 Lib

/-! ## Programs that allocate -/

/-- A program gives a value that meets the condition, or the allocator refuses. -/
def Grants {α : Type} (program : Alloc α) (holds : α → Prop) : Prop :=
  ∀ answers, match program answers with
    | .ok value after => holds value ∧ after <:+ answers
    | .fail _ _ => false ∈ answers
    | .illegal => False

theorem Grants.bind {α β : Type} {first : Alloc α} {next : α → Alloc β} {holds : α → Prop}
    {after : β → Prop} (begins : Grants first holds)
    (continues : ∀ value, holds value → Grants (next value) after) : Grants (first >>= next) after := by
  intro answers
  have begun := begins answers
  rw [show (first >>= next) answers = Action.bind first next answers from rfl, Action.bind]
  cases ran : first answers with
  | ok value rest =>
      rw [ran] at begun
      obtain ⟨held, suffix⟩ := begun
      have continued := continues value held rest
      dsimp only
      cases went : next value rest with
      | ok result left =>
          rw [went] at continued
          exact ⟨continued.1, continued.2.trans suffix⟩
      | fail error left =>
          rw [went] at continued
          exact suffix.subset continued
      | illegal =>
          rw [went] at continued
          exact continued
  | fail error rest =>
      rw [ran] at begun
      exact begun
  | illegal =>
      rw [ran] at begun
      exact begun

/-- Programs that may be refused memory. -/
def granting : Judgement Alloc where
  meets := Grants
  ret held := fun answers => ⟨held, List.suffix_refl answers⟩
  seq := Grants.bind

section Allocating

variable {α : Type} {holds : α → Prop}

theorem Grants.pure {value : α} (held : holds value) : Grants (pure value) holds := granting.ret held

theorem allocate_grants : Grants allocate fun _ => True := by
  intro answers
  cases answers with
  | nil => exact ⟨trivial, List.suffix_refl _⟩
  | cons answer answers =>
      cases answer with
      | true => exact ⟨trivial, List.suffix_cons _ _⟩
      | false => exact List.mem_cons_self

theorem trapped_grants {program : Option α} {value : α} (ran : program = some value)
    (held : holds value) : Grants (trapped program) holds := by
  rw [ran]
  exact fun answers => ⟨held, List.suffix_refl answers⟩

theorem trapped_equals {program : Option α} {value : α} (ran : program = some value) :
    Grants (trapped program) fun found => found = value :=
  trapped_grants ran rfl

/-- Allocations before a program. -/
theorem allocate_then {next : Alloc α} (continues : Grants next holds) :
    Grants (allocate >>= fun _ => next) holds :=
  allocate_grants.bind fun _ _ => continues

end Allocating

/-! ## Big integers -/

section BigIntegers

variable {modulus : Nat}

theorem managedFromBytes_grants (bytes : List UInt8) :
    Grants (managedFromBytes bytes) fun value => value = beValue bytes :=
  allocate_then (allocate_then (Grants.pure rfl))

theorem reduceManaged_grants (positive : 0 < modulus) (value : Nat) :
    Grants (reduceManaged value modulus) fun reduced => reduced = value % modulus :=
  allocate_then (allocate_then (allocate_then (trapped_grants (remTrap_eq positive) rfl)))

theorem mulMod_grants (positive : 0 < modulus) (a b : Nat) :
    Grants (mulMod a b modulus) fun product => product = a * b % modulus :=
  allocate_then (allocate_then (trapped_grants (remTrap_eq positive) rfl))

theorem writeTwosComplement_eq {len value : Nat} (fits : value < 256 ^ len) :
    writeTwosComplement len value = some (beBytes len value) :=
  if_pos fits

/-- What a path has to write. -/
def power (baseBytes exponentBytes modulusBytes : List UInt8) : List UInt8 :=
  beBytes modulusBytes.length (beValue baseBytes ^ beValue exponentBytes % beValue modulusBytes)

variable {modulusBytes : List UInt8}

theorem modexpBigIntInto_grants {output : List UInt8} (baseBytes exponentBytes : List UInt8)
    (sized : output.length = modulusBytes.length) (positive : 0 < beValue modulusBytes) :
    Grants (modexpBigIntInto output baseBytes exponentBytes modulusBytes)
      fun written => written = power baseBytes exponentBytes modulusBytes := by
  apply (managedFromBytes_grants modulusBytes).bind
  rintro _ rfl
  apply (managedFromBytes_grants baseBytes).bind
  rintro _ rfl
  apply (reduceManaged_grants positive _).bind
  rintro _ rfl
  apply allocate_then
  apply (reduceManaged_grants positive 1).bind
  rintro _ rfl
  apply allocate_then
  apply allocate_then
  apply allocate_then
  have climbs : Climbs granting
      (fun result exponent => result = beValue baseBytes ^ exponent % beValue modulusBytes)
      (fun result => mulMod result result (beValue modulusBytes))
      (fun result => mulMod result (beValue baseBytes % beValue modulusBytes) (beValue modulusBytes))
      (copyManaged (beValue baseBytes % beValue modulusBytes)) := by
    refine ⟨?_, ?_, ?_⟩
    · exact allocate_then (Grants.pure (by rw [pow_one]))
    · rintro _ exponent rfl
      apply granting.weaken (mulMod_grants positive _ _)
      rintro _ rfl
      rw [Nat.two_mul, pow_add, ← Nat.mul_mod]
    · rintro _ exponent rfl
      apply granting.weaken (mulMod_grants positive _ _)
      rintro _ rfl
      rw [pow_succ, ← Nat.mul_mod]
  apply Grants.bind (ladder_meets climbs (by rw [pow_zero]) exponentBytes)
  rintro _ rfl
  have fits := Nat.lt_trans (Nat.mod_lt (beValue baseBytes ^ beValue exponentBytes) positive)
    (beValue_lt modulusBytes)
  rw [sized]
  exact trapped_grants (writeTwosComplement_eq fits) rfl

end BigIntegers

/-! ## The limb path -/

section LimbPath

theorem stripLeadingZeroBytes_head (bytes : List UInt8) :
    (stripLeadingZeroBytes bytes).head? ≠ some 0 := by
  induction bytes with
  | nil => exact nofun
  | cons byte rest ih =>
      rw [stripLeadingZeroBytes]
      split
      · exact ih
      · next nonzero =>
          intro zero
          exact nonzero (Option.some.inj zero)

theorem beValue_odd {bytes : List UInt8} {last : UInt8} (ends : bytes.getLast? = some last)
    (odd : last &&& 1 ≠ 0) : beValue bytes % 2 = 1 := by
  obtain ⟨before, rfl⟩ := List.getLast?_eq_some_iff.mp ends
  have bit : last.toNat % 2 ≠ 0 := by
    intro zero
    apply odd
    apply UInt8.toNat_inj.mp
    rw [UInt8.toNat_and]
    exact (Nat.and_one_is_mod _).trans zero
  rw [beValue_append_singleton]
  omega

theorem value_odd (limbs : Limbs) (count : Nat) :
    value limbs 0 (count + 1) % 2 = limb limbs 0 % 2 := by
  induction count with
  | zero => rw [value_succ, value_zero, pow_zero, Nat.mul_one, Nat.zero_add]
  | succ count ih =>
      have even : limb limbs (0 + (count + 1)) * (2 ^ 64) ^ (count + 1) % 2 = 0 := by
        apply Nat.mod_eq_zero_of_dvd
        apply Dvd.dvd.mul_left
        exact (Nat.dvd_of_mod_eq_zero (by decide)).trans (dvd_pow_self (2 ^ 64) (Nat.succ_ne_zero count))
      rw [value_succ, Nat.add_mod, even, Nat.add_zero, Nat.mod_mod, ih]

/-- An odd modulus reduces with the inverse of its lowest limb. -/
theorem reduces_of_odd {limbCount total : Nat} {modulus : Limbs} (nonempty : 0 < limbCount)
    (room : limbCount ≤ maxMontgomeryLimbs) (holds : HoldsLimbs limbCount modulus total)
    (odd : total % 2 = 1) :
    Reduces limbCount modulus (subWrap 64 0 (newtonInverse 64 (limb modulus 0))) total where
  nonempty := nonempty
  room := room
  holds := holds
  inverse := by
    apply negInverse_dvd (by decide)
    obtain ⟨lower, rfl⟩ : ∃ lower, limbCount = lower + 1 := ⟨limbCount - 1, by omega⟩
    rw [← value_odd modulus lower, holds.value]
    exact odd

/-- A residue written to the scratch bytes and read back into limbs. -/
theorem scratch_limbs {limbCount total number : Nat} (room : limbCount ≤ maxMontgomeryLimbs)
    (totalFits : total ≤ 256 ^ (limbCount * 8)) (fits : number < total) :
    ∃ bytes, writeTwosComplement (limbCount * 8) number = some bytes ∧
      HoldsLimbs limbCount (limbsFromBytes limbCount bytes) number := by
  have numberFits := Nat.lt_of_lt_of_le fits totalFits
  refine ⟨_, writeTwosComplement_eq numberFits, ?_⟩
  have holds := @limbsFromBytes_holds limbCount (beBytes (limbCount * 8) number) room (by
    rw [beBytes_length, Nat.mul_comm])
  rwa [beValue_beBytes, Nat.mod_eq_of_lt numberFits] at holds

variable {output modulusBytes : List UInt8}

/-- The limb path writes the power, or leaves the inputs to the big integers. -/
theorem modexpMontgomeryLimbsInto_grants (baseBytes exponentBytes : List UInt8)
    (sized : output.length = modulusBytes.length) :
    Grants (modexpMontgomeryLimbsInto output baseBytes exponentBytes modulusBytes)
      fun written => ∀ bytes, written = some bytes →
        bytes = power baseBytes exponentBytes modulusBytes := by
  have sigValue := stripLeadingZeroBytes_value modulusBytes
  have leading := byteWidth_beValue (stripLeadingZeroBytes_head modulusBytes)
  have shorter := stripLeadingZeroBytes_length modulusBytes
  have sigFits := beValue_lt (stripLeadingZeroBytes modulusBytes)
  rw [modexpMontgomeryLimbsInto]
  dsimp only
  generalize stripLeadingZeroBytes modulusBytes = sigMod at *
  split
  · exact Grants.pure nofun
  · next suited =>
      have long : 32 < sigMod.length := by omega
      have short : sigMod.length ≤ maxMontgomeryLimbs * 8 := by omega
      obtain ⟨last, ends⟩ : ∃ last, sigMod.getLast? = some last := by
        cases sigMod with
        | nil => exact absurd long (Nat.not_lt_zero _)
        | cons byte rest => exact ⟨_, List.getLast?_cons⟩
      apply (trapped_equals ends).bind
      rintro _ rfl
      split
      · exact Grants.pure nofun
      · next bit =>
          have odd := beValue_odd ends bit
          have room : (sigMod.length + 7) / 8 ≤ maxMontgomeryLimbs := by
            rw [maxMontgomeryLimbs] at short ⊢
            omega
          have covered : sigMod.length ≤ 8 * ((sigMod.length + 7) / 8) := by omega
          have nonempty : 0 < (sigMod.length + 7) / 8 := by omega
          generalize (sigMod.length + 7) / 8 = limbCount at *
          have holds := limbsFromBytes_holds room covered
          have reduces := reduces_of_odd nonempty room holds odd
          have positive : 0 < beValue sigMod := by omega
          have large : 1 < beValue sigMod := by
            by_contra small
            have one : beValue sigMod = 1 := by omega
            rw [one] at leading
            have narrow : byteWidth 1 ≤ 1 := byteWidth_le_iff.mpr (by decide)
            omega
          have totalFits : beValue sigMod ≤ 256 ^ (limbCount * 8) :=
            Nat.le_trans (Nat.le_of_lt sigFits) (Nat.pow_le_pow_right (by decide) (by omega))
          generalize limbsFromBytes limbCount sigMod = modulus at *
          have lowest : modulus.get 0 = some (limb modulus 0) := get_eq (by
            rw [holds.length]
            decide)
          apply (trapped_equals lowest).bind
          rintro _ rfl
          apply (managedFromBytes_grants sigMod).bind
          rintro _ rfl
          apply allocate_then
          apply allocate_then
          apply (reduceManaged_grants positive _).bind
          rintro _ rfl
          obtain ⟨squareBytes, squareWritten, squareHolds⟩ := scratch_limbs room totalFits
            (Nat.mod_lt (2 ^ (128 * limbCount)) positive)
          apply (trapped_equals squareWritten).bind
          rintro _ rfl
          apply (managedFromBytes_grants baseBytes).bind
          rintro _ rfl
          apply (reduceManaged_grants positive _).bind
          rintro _ rfl
          obtain ⟨reducedBytes, reducedWritten, reducedHolds⟩ := scratch_limbs room totalFits
            (Nat.mod_lt (beValue baseBytes) positive)
          apply (trapped_equals reducedWritten).bind
          rintro _ rfl
          have squared : 2 ^ (128 * limbCount) % beValue sigMod ≡
              (2 ^ 64) ^ limbCount * (2 ^ 64) ^ limbCount [MOD beValue sigMod] := by
            have same : (2 ^ 64) ^ limbCount * (2 ^ 64) ^ limbCount = 2 ^ (128 * limbCount) := by
              rw [← mul_pow, ← pow_add, ← pow_mul]
            rw [same]
            exact Nat.mod_modEq _ _
          obtain ⟨result, ran, resultHolds⟩ := limbsPow_eq reduces odd large reducedHolds
            (Nat.mod_lt _ positive) squareHolds (Nat.mod_lt _ positive) squared exponentBytes
          apply (trapped_equals ran).bind
          rintro _ rfl
          rw [← Nat.pow_mod] at resultHolds
          have resultFits : beValue baseBytes ^ beValue exponentBytes % beValue sigMod <
              256 ^ modulusBytes.length :=
            Nat.lt_trans (Nat.mod_lt _ positive) (Nat.lt_of_lt_of_le sigFits
              (Nat.pow_le_pow_right (by decide) shorter))
          have written := bytesFromLimbs_eq room resultHolds resultFits
          rw [← sized] at written
          apply (trapped_equals written).bind
          rintro _ rfl
          apply Grants.pure
          intro bytes same
          rw [← Option.some.inj same, power, sized, sigValue]

end LimbPath

/-! ## Every path -/

section Paths

variable {output modulusBytes : List UInt8}

theorem into_grants (baseBytes exponentBytes : List UInt8)
    (cleared : output = List.replicate modulusBytes.length 0) (positive : 0 < beValue modulusBytes) :
    Grants (into output baseBytes exponentBytes modulusBytes)
      fun written => written = power baseBytes exponentBytes modulusBytes := by
  have sized : output.length = modulusBytes.length := by rw [cleared, List.length_replicate]
  rw [into]
  rcases modexpSmallInto_eq baseBytes exponentBytes cleared positive with small | other
  · apply (trapped_equals small).bind
    rintro _ rfl
    exact Grants.pure rfl
  · apply (trapped_equals other).bind
    rintro _ rfl
    apply (modexpMontgomeryLimbsInto_grants baseBytes exponentBytes sized).bind
    intro limbs written
    cases limbs with
    | some bytes => exact Grants.pure (written bytes rfl)
    | none => exact modexpBigIntInto_grants baseBytes exponentBytes sized positive

end Paths

/-- Modular exponentiation writes the power into the cleared output whichever path it takes; in the
fast paths nothing overflows, the Newton inverse is exact, the Montgomery product is below twice the
modulus, and the carry column does not wrap. -/
theorem exponentiation_exact (baseBytes exponentBytes modulusBytes : List UInt8)
    (nonzero : beValue modulusBytes ≠ 0) :
    (∀ path ∈ [into, modexpBigIntInto],
      Grants (path (List.replicate modulusBytes.length 0) baseBytes exponentBytes modulusBytes)
        fun written => written = beBytes modulusBytes.length
          (beValue baseBytes ^ beValue exponentBytes % beValue modulusBytes)) ∧
    (∃ written, modexpSmallInto (List.replicate modulusBytes.length 0) baseBytes exponentBytes
        modulusBytes = some written ∧
      ∀ bytes, written = some bytes → bytes = beBytes modulusBytes.length
        (beValue baseBytes ^ beValue exponentBytes % beValue modulusBytes)) ∧
    Grants (modexpMontgomeryLimbsInto (List.replicate modulusBytes.length 0) baseBytes exponentBytes
        modulusBytes) (fun written => ∀ bytes, written = some bytes →
      bytes = beBytes modulusBytes.length
        (beValue baseBytes ^ beValue exponentBytes % beValue modulusBytes)) ∧
    (∀ bits ≤ 256, ∀ modulus, modulus % 2 = 1 →
      modulus * newtonInverse bits modulus ≡ 1 [MOD 2 ^ bits]) ∧
    (∀ bits ∈ [64, 128, 256], ∀ modulus < 2 ^ bits, modulus % 2 = 1 →
      ∀ a < modulus, ∀ b < modulus, ∃ sum,
        montSum bits a b modulus (subWrap bits 0 (newtonInverse bits modulus)) = some sum ∧
          sum < 2 * modulus) ∧
    (∀ limbCount total, 0 < limbCount → limbCount ≤ maxMontgomeryLimbs → total % 2 = 1 →
      ∀ modulus, HoldsLimbs limbCount modulus total → ∀ a b x y, HoldsLimbs limbCount a x → x < total →
        HoldsLimbs limbCount b y → y < total →
          montMulColumn (addTrap 64) limbCount a b modulus
              (subWrap 64 0 (newtonInverse 64 (limb modulus 0))) =
            montMulLimbs limbCount a b modulus
              (subWrap 64 0 (newtonInverse 64 (limb modulus 0))) ∧
          (montMulLimbs limbCount a b modulus
            (subWrap 64 0 (newtonInverse 64 (limb modulus 0)))).isSome) := by
  have positive := Nat.pos_of_ne_zero nonzero
  have sized : (List.replicate modulusBytes.length (0 : UInt8)).length = modulusBytes.length :=
    List.length_replicate
  refine ⟨?_, ?_, modexpMontgomeryLimbsInto_grants baseBytes exponentBytes sized, ?_, ?_, ?_⟩
  · intro path listed
    rw [List.mem_pair] at listed
    rcases listed with rfl | rfl
    · exact into_grants baseBytes exponentBytes rfl positive
    · exact modexpBigIntInto_grants baseBytes exponentBytes sized positive
  · rcases modexpSmallInto_eq baseBytes exponentBytes rfl positive with small | other
    · exact ⟨_, small, fun bytes same => (Option.some.inj same).symm⟩
    · exact ⟨_, other, nofun⟩
  · intro bits narrow modulus odd
    exact newtonInverse_exact narrow odd
  · intro bits width modulus fits odd a aFits b bFits
    have sizes : 0 < bits ∧ bits ≤ 256 := by
      simp only [List.mem_cons, List.not_mem_nil, or_false] at width
      omega
    obtain ⟨sum, ran, bounded, _⟩ :=
      montSum_eq sizes.1 fits (negInverse_dvd sizes.2 odd) aFits bFits
    exact ⟨sum, ran, bounded⟩
  · intro limbCount total nonempty room odd modulus holds a b x y aHolds aFits bHolds _
    exact montMulLimbs_checked (reduces_of_odd nonempty room holds odd) aHolds bHolds aFits

/-- Three to the fifth modulo seven. -/
theorem exponentiation_exact_seven :
    beValue [7] ≠ 0 ∧ Grants (into [0] [3] [5] [7]) (fun written => written = [5]) :=
  ⟨by decide, (exponentiation_exact [3] [5] [7] (by decide)).1 into (List.mem_cons_self ..)⟩

end EvmZig.Modexp
