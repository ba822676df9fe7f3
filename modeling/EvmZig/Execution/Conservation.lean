import EvmZig.Execution.Activations

/-!
# Conservation of the state gas

`Ran` follows one activation through its charges, refills and settled children,
each of which ran under the same rules and was started with the reservoir its
parent had at that point.  Whatever happened so far, the reservoir an activation
was started with can be read back from its counters.
-/

set_option autoImplicit false

namespace EvmZig.Execution

open Zig
open Lib (SpillLedger)

inductive Kind where
  | frame
  | native
  deriving DecidableEq, Repr

abbrev Kind.Carrier : Kind → Type
  | .frame => CallFrame
  | .native => NativeLedger

instance (kind : Kind) : Receiver kind.Carrier :=
  match kind with
  | .frame => inferInstanceAs (Receiver CallFrame)
  | .native => inferInstanceAs (Receiver NativeLedger)

/-- The counters agree but for regular gas and refunds. -/
def SameStateGas {kind : Kind} (self after : kind.Carrier) : Prop :=
  (gas after).SameState (gas self)

mutual

/-- Runs of an activation that was started with the reservoir `opening`. -/
inductive Ran : (kind : Kind) → (opening : Int) → kind.Carrier → Prop
  | frame (msg : Message) (code : List UInt8) (gasFits : FitsI64 msg.gas)
      (reservoirFits : FitsI64 msg.gasReservoir) (nonneg : 0 ≤ msg.gasReservoir) :
      Ran .frame msg.gasReservoir (CallFrame.init msg code)
  | native (msg : Message) (gasFits : FitsI64 msg.gas)
      (reservoirFits : FitsI64 msg.gasReservoir) (nonneg : 0 ≤ msg.gasReservoir) :
      Ran .native msg.gasReservoir (NativeLedger.init msg)
  | trackGas {kind : Kind} {opening amount : Int} {paid : Bool} {self after : kind.Carrier}
      (before : Ran kind opening self) (ran : trackGas amount self = .ok paid after) :
      Ran kind opening after
  | trackStateGas {kind : Kind} {opening amount : Int} {paid : Bool} {self after : kind.Carrier}
      (before : Ran kind opening self) (ran : trackStateGas amount self = .ok paid after)
      (fits : ((gas self).charged amount paid).Fits) : Ran kind opening after
  | refillStateGas {kind : Kind} {opening amount : Int} {self after : kind.Carrier}
      (before : Ran kind opening self) (amountFits : FitsI64 amount)
      (ran : assignGas (refillStateGas amount) self = .ok () after)
      (fits : ((gas self).refilled amount).Fits) : Ran kind opening after
  | settleChild {kind : Kind} {opening gasLimit stateGasCharged : Int} {child : HostResult}
      {paid : Bool} {self after : kind.Carrier} (before : Ran kind opening self)
      (produced : Produced (gas self).gasReservoir child) (chargedFits : FitsI64 stateGasCharged)
      (ran : settleChild gasLimit stateGasCharged child self = .ok paid after)
      (fits : (gas self).SettleFits gasLimit stateGasCharged child paid) : Ran kind opening after
  /-- Everything else an activation does: halting, suspending and resuming, the
  call stipend, refunds. -/
  | elsewhere {kind : Kind} {opening : Int} {self after : kind.Carrier}
      (before : Ran kind opening self) (same : SameStateGas self after)
      (fits : (gas after).Fits) : Ran kind opening after

/-- Results of an attempt that was started with the reservoir `opening`. -/
inductive Produced : (opening : Int) → HostResult → Prop
  | call {opening : Int} {self : CallFrame} {result : FrameResult} (checkpointReverted : Bool)
      (ran : Ran .frame opening self) (returned : self.result = some result) :
      Produced opening (.fromExecution result.executionResult checkpointReverted)
  | create {opening : Int} {self : CallFrame} {result : FrameResult} {child : HostResult}
      (create : CreateSpec) (ran : Ran .frame opening self) (returned : self.result = some result)
      (finished : finishCreate create result = some child)
      (fits : ∀ amount, create.depositStateGas result.outputData.length = some amount →
        result.gas.ChargeFits amount) :
      Produced opening child
  | native {opening : Int} {self : NativeLedger} {child : HostResult} {done : Status}
      {violatedStatic : Bool} {outputData : List UInt8} (ran : Ran .native opening self)
      (finished : self.finish done violatedStatic outputData = some child) :
      Produced opening child
  | answer (msg : Message) (outcome : ExecutionOutcome) (gasLeft : Int) (reverted : Bool)
      (outputData : List UInt8) (nonneg : 0 ≤ msg.gasReservoir) :
      Produced msg.gasReservoir (answer msg outcome gasLeft reverted outputData)

end

/-- What a run keeps: the balance, and counters that are in range. -/
structure Kept (opening : Int) (counters : Counters) : Prop where
  sound : counters.Sound opening
  fits : counters.Fits
  openingFits : FitsI64 opening
  nonneg : 0 ≤ opening

/-- What a result owes to the activation it is settled into. -/
structure Closed (opening : Int) (child : HostResult) : Prop where
  sound : child.gas.Sound opening
  rewound : child.isSuccess = false →
    SpillLedger.Same child.gas.ledger (SpillLedger.opened 0 opening)

namespace Closed

variable {opening : Int} {child : HostResult} {counters : Counters}

/-- A result whose state gas was finalized. -/
theorem of_finalized (kept : Kept opening counters)
    (finalized : child.gas = finalizeStateGas child.status counters) : Closed opening child := by
  obtain ⟨sound, fits, openingFits, nonneg⟩ := kept
  constructor
  case sound =>
    rw [finalized]
    exact finalizeStateGas_sound fits.gasReservoir openingFits nonneg sound
  case rewound =>
    intro failed
    have notSuccess : child.status ≠ .success := by simpa [HostResult.isSuccess] using failed
    have rewound := finalizeStateGas_rewound notSuccess fits.gasReservoir openingFits nonneg sound
    rw [finalized]
    exact ⟨rewound.reservoir, rewound.spent, rewound.spilled⟩

theorem of_success (sound : child.gas.Sound opening) (succeeded : child.isSuccess = true) :
    Closed opening child :=
  ⟨sound, fun failed => by rw [succeeded] at failed; cases failed⟩

theorem of_answer {msg : Message} (outcome : ExecutionOutcome) (gasLeft : Int) (reverted : Bool)
    (outputData : List UInt8) (nonneg : 0 ≤ msg.gasReservoir) :
    Closed msg.gasReservoir (answer msg outcome gasLeft reverted outputData) :=
  ⟨SpillLedger.sound_opened nonneg, fun _ => ⟨rfl, rfl, rfl⟩⟩

end Closed

namespace Kept

variable {opening : Int} {counters other : Counters}

theorem elsewhere (kept : Kept opening counters) (same : other.SameState counters)
    (fits : other.Fits) : Kept opening other :=
  ⟨kept.sound.of_same same, fits, kept.openingFits, kept.nonneg⟩

/-- Regular gas and refunds may change inside the range. -/
theorem regular (kept : Kept opening counters) {gasLeft gasRefund : Int} (left : FitsI64 gasLeft)
    (refund : FitsI64 gasRefund) :
    Kept opening { counters with gasLeft := gasLeft, gasRefund := gasRefund } :=
  kept.elsewhere ⟨rfl, rfl, rfl⟩
    ⟨left, refund, kept.fits.gasReservoir, kept.fits.stateGasSpent, kept.fits.stateGasFromGasLeft⟩

theorem opened {msg : Message} (gasFits : FitsI64 msg.gas)
    (reservoirFits : FitsI64 msg.gasReservoir) (nonneg : 0 ≤ msg.gasReservoir) :
    Kept msg.gasReservoir ⟨msg.gas, 0, msg.gasReservoir, 0, 0⟩ :=
  ⟨SpillLedger.sound_opened nonneg,
    ⟨gasFits, fitsI64_zero, reservoirFits, fitsI64_zero, fitsI64_zero⟩, reservoirFits, nonneg⟩

end Kept

section Results

variable {opening : Int} {self : CallFrame} {result : FrameResult} {child : HostResult}

theorem CallFrame.result_eq (returned : self.result = some result) :
    ∃ refund, (refund = self.gas.gasRefund ∨ refund = 0) ∧
      result.gas = finalizeStateGas result.halt.status { self.gas with gasRefund := refund } := by
  simp only [CallFrame.result, Option.bind_eq_bind, Option.bind_eq_some_iff, Option.pure_def,
    Option.some.injEq] at returned
  obtain ⟨haltReason, halted, rfl⟩ := returned
  refine ⟨_, ?_, rfl⟩
  split
  · exact .inl rfl
  · exact .inr rfl

/-- The counters `result` finalizes. -/
theorem CallFrame.result_kept (kept : Kept opening self.gas) (returned : self.result = some result) :
    ∃ counters, Kept opening counters ∧
      result.gas = finalizeStateGas result.halt.status counters := by
  obtain ⟨refund, choice, finalized⟩ := CallFrame.result_eq returned
  refine ⟨_, kept.regular kept.fits.gasLeft ?_, finalized⟩
  rcases choice with rfl | rfl
  · exact kept.fits.gasRefund
  · exact fitsI64_zero

theorem CallFrame.result_closed (kept : Kept opening self.gas) (returned : self.result = some result)
    (checkpointReverted : Bool) :
    Closed opening (.fromExecution result.executionResult checkpointReverted) := by
  obtain ⟨counters, countersKept, finalized⟩ := CallFrame.result_kept kept returned
  exact .of_finalized countersKept finalized

theorem createFailureFromResult_closed {execution : ExecutionResult} (kept : Kept opening execution.gas)
    (status : Status) (cause : TerminalCause) :
    Closed opening (createFailureFromResult execution status cause) :=
  .of_finalized (kept.regular fitsI64_zero fitsI64_zero) rfl

/-- The code-deposit charge keeps the balance, paid or not. -/
theorem Kept.deposited {execution after : ExecutionResult} {amount : Int}
    (kept : Kept opening execution.gas) (charged : execution.Charged amount after) :
    Kept opening after.gas := by
  cases charged with
  | nothing none => exact kept
  | short positive => exact kept.regular fitsI64_zero kept.fits.gasRefund
  | paid positive fits => exact ⟨kept.sound.charge positive, fits, kept.openingFits, kept.nonneg⟩

theorem finishCreate_closed (create : CreateSpec) (kept : Kept opening self.gas)
    (returned : self.result = some result) (finished : finishCreate create result = some child)
    (fits : ∀ amount, create.depositStateGas result.outputData.length = some amount →
      result.gas.ChargeFits amount) :
    Closed opening child := by
  obtain ⟨counters, countersKept, finalized⟩ := CallFrame.result_kept kept returned
  simp only [finishCreate] at finished
  split at finished
  case isTrue failed =>
    cases finished
    exact CallFrame.result_closed kept returned true
  case isFalse succeeded =>
  have success : result.halt.status = .success := by
    simpa [FrameResult.executionResult] using succeeded
  have resultKept : Kept opening result.executionResult.gas := by
    rw [success] at finalized
    have same : result.executionResult.gas = counters := finalized
    rw [same]
    exact countersKept
  -- every failure from here on is one of a result whose counters are kept
  have failure := createFailureFromResult_closed resultKept
  split at finished
  case isTrue => cases finished; exact failure ..
  case isFalse =>
  split at finished
  case isTrue => cases finished; exact failure ..
  case isFalse =>
  split at finished
  case isTrue => cases finished; exact failure ..
  case isFalse =>
  split at finished
  case h_1 => cases finished; exact failure ..
  case h_2 depositRegularCost priced =>
  split at finished
  case isTrue short =>
    split at finished
    case isTrue commits =>
      cases finished
      exact .of_success resultKept.sound rfl
    case isFalse => cases finished; exact failure ..
  case isFalse =>
  simp only [Option.bind_eq_bind, Option.bind_eq_some_iff, subI64_eq_some] at finished
  obtain ⟨gasLeft, ⟨leftFits, rfl⟩, rest⟩ := finished
  have paidKept := resultKept.regular leftFits resultKept.fits.gasRefund
  split at rest
  case h_1 => cases rest; exact createFailureFromResult_closed paidKept ..
  case h_2 depositStateGas stateGas =>
  simp only [Option.bind_eq_some_iff] at rest
  obtain ⟨depositResult, charged, rest⟩ := rest
  have chargeFits := fits depositStateGas stateGas
  have depositKept := paidKept.deposited
    (ExecutionResult.trackStateGas_charged paidKept.fits ⟨chargeFits.spent, chargeFits.spilled⟩
      charged)
  split at rest
  case isTrue => cases rest; exact createFailureFromResult_closed depositKept ..
  case isFalse paid =>
    cases rest
    have success : depositResult.outcome.status = .success := not_not.mp paid
    exact .of_success depositKept.sound (decide_eq_true success)

theorem NativeLedger.finish_closed {ledger : NativeLedger} {done : Status} {violatedStatic : Bool}
    {outputData : List UInt8} (kept : Kept opening ledger.gas)
    (finished : ledger.finish done violatedStatic outputData = some child) :
    Closed opening child := by
  simp only [NativeLedger.finish, Option.bind_eq_bind, Option.bind_eq_some_iff,
    Option.pure_def, Option.some.injEq] at finished
  obtain ⟨_, asserted, rfl⟩ := finished
  exact .of_finalized
    (kept.regular (fitsI64_ite kept.fits.gasLeft) (fitsI64_ite kept.fits.gasRefund)) rfl

end Results

section Settlement

variable {σ : Type} [Receiver σ] {opening gasLimit stateGasCharged : Int} {child : HostResult}
  {paid : Bool} {self after : σ}

/-- A closed result can be settled: no assertion fails. -/
theorem settleChild_returns (sound : (gas self).Sound opening)
    (closed : Closed (gas self).gasReservoir child) (chargedFits : FitsI64 stateGasCharged)
    {charged : σ} (tracked : trackGas (gasLimit - max child.gas.gasLeft 0) self = .ok paid charged)
    (fits : (gas self).SettleFits gasLimit stateGasCharged child paid) :
    ∃ after, settleChild gasLimit stateGasCharged child self = .ok paid after ∧
      gas after = (gas self).settled gasLimit stateGasCharged child paid :=
  settleChild_run tracked fits chargedFits closed.sound.reservoir_nonneg
    (Int.add_nonneg sound.spilled_nonneg closed.sound.spilled_nonneg)

theorem settleChild_exact (sound : (gas self).Sound opening)
    (closed : Closed (gas self).gasReservoir child) (chargedFits : FitsI64 stateGasCharged)
    (ran : settleChild gasLimit stateGasCharged child self = .ok paid after)
    (fits : (gas self).SettleFits gasLimit stateGasCharged child paid) :
    gas after = (gas self).settled gasLimit stateGasCharged child paid := by
  obtain ⟨charged, tracked⟩ := settleChild_tracked ran
  obtain ⟨after', ran', exact⟩ := settleChild_returns sound closed chargedFits tracked fits
  rw [ran', Outcome.ok.injEq] at ran
  obtain ⟨-, rfl⟩ := ran
  exact exact

theorem Kept.settled (kept : Kept opening (gas self))
    (closed : Closed (gas self).gasReservoir child) (chargedFits : FitsI64 stateGasCharged)
    (ran : settleChild gasLimit stateGasCharged child self = .ok paid after)
    (fits : (gas self).SettleFits gasLimit stateGasCharged child paid) :
    Kept opening (gas after) := by
  rw [settleChild_exact kept.sound closed chargedFits ran fits]
  exact ⟨Counters.settled_sound kept.sound closed.sound closed.rewound, fits.settled,
    kept.openingFits, kept.nonneg⟩

end Settlement

mutual

theorem ran_kept {kind : Kind} {opening : Int} {self : kind.Carrier} :
    Ran kind opening self → Kept opening (gas self)
  | .frame msg code gasFits reservoirFits nonneg => Kept.opened gasFits reservoirFits nonneg
  | .native msg gasFits reservoirFits nonneg => Kept.opened gasFits reservoirFits nonneg
  | .trackGas before ran => by
      have kept := ran_kept before
      obtain ⟨charged, leftFits⟩ := Receiver.trackGas_ok ran
      rw [charged] at leftFits ⊢
      exact kept.regular leftFits kept.fits.gasRefund
  | .trackStateGas before ran fits => by
      have kept := ran_kept before
      rw [trackStateGas_ok ran fits]
      exact ⟨Counters.charged_sound kept.sound, fits, kept.openingFits, kept.nonneg⟩
  | .refillStateGas before amountFits ran fits => by
      have kept := ran_kept before
      obtain ⟨counters, refilled, rfl⟩ := assignGas_ok.mp ran
      rw [refillStateGas_eq kept.sound.spilled_nonneg amountFits fits, Option.some.injEq] at refilled
      rw [Receiver.gas_setGas, ← refilled]
      exact ⟨Counters.refilled_sound kept.sound, fits, kept.openingFits, kept.nonneg⟩
  | .settleChild before produced chargedFits ran fits =>
      (ran_kept before).settled (produced_closed produced) chargedFits ran fits
  | .elsewhere before same fits => (ran_kept before).elsewhere same fits

theorem produced_closed {opening : Int} {child : HostResult} :
    Produced opening child → Closed opening child
  | .call checkpointReverted ran returned =>
      CallFrame.result_closed (ran_kept ran) returned checkpointReverted
  | .create create ran returned finished fits =>
      finishCreate_closed create (ran_kept ran) returned finished fits
  | .native ran finished => NativeLedger.finish_closed (ran_kept ran) finished
  | .answer msg outcome gasLeft reverted outputData nonneg =>
      .of_answer outcome gasLeft reverted outputData nonneg

end

/-- What holds of an activation whose run started with the reservoir `opening`. -/
structure Conserved (opening : Int) {kind : Kind} (self : kind.Carrier) : Prop where
  balance : (gas self).gasReservoir + (gas self).stateGasSpent - (gas self).stateGasFromGasLeft =
    opening
  reservoir_nonneg : 0 ≤ (gas self).gasReservoir
  spilled_nonneg : 0 ≤ (gas self).stateGasFromGasLeft
  settled : (gas self).gasReservoir = 0 ∨ (gas self).stateGasFromGasLeft = 0
  /-- Settling a child of this activation returns, so its assertions hold. -/
  settles : ∀ {gasLimit stateGasCharged : Int} {child : HostResult}, Receiver.live self →
    Produced (gas self).gasReservoir child → FitsI64 stateGasCharged →
    ∀ paid : Bool, (paid = true ↔ gasLimit - max child.gas.gasLeft 0 ≤ (gas self).gasLeft) →
    (gas self).SettleFits gasLimit stateGasCharged child paid →
    ∃ after, settleChild gasLimit stateGasCharged child self = .ok paid after
  /-- A charge that is refilled when the child it was made for has failed. -/
  refilled : ∀ {amount gasLimit : Int} {charged later after : kind.Carrier} {child : HostResult}
    {paid : Bool}, FitsI64 amount → trackStateGas amount self = .ok true charged →
    ((gas self).charged amount true).Fits → SameStateGas charged later →
    Produced (gas later).gasReservoir child → child.isSuccess = false →
    settleChild gasLimit amount child later = .ok paid after →
    (gas later).SettleFits gasLimit amount child paid → SameStateGas self after
  /-- Ending without success gives the initial reservoir back. -/
  rewound : ∀ {status : Status}, status ≠ .success →
    (finalizeStateGas status (gas self)).gasReservoir = opening ∧
    (finalizeStateGas status (gas self)).stateGasSpent = 0 ∧
    (finalizeStateGas status (gas self)).stateGasFromGasLeft = 0
  reverted : FitsI64 ((gas self).gasLeft + (gas self).stateGasFromGasLeft) →
    (finalizeStateGas .revert (gas self)).gasLeft =
      (gas self).gasLeft + (gas self).stateGasFromGasLeft
  halted : ∀ {status : Status}, status = .invalid ∨ status = .outOfGas →
    (finalizeStateGas status (gas self)).gasLeft = (gas self).gasLeft

section Conservation

variable {kind : Kind} {opening : Int} {self : kind.Carrier}

theorem trackGas_returns {σ : Type} [Receiver σ] {self : σ} {amount : Int} {paid : Bool}
    (live : Receiver.live self) (covers : paid = true ↔ amount ≤ (gas self).gasLeft)
    (fits : FitsI64 (if paid then (gas self).gasLeft - amount else 0)) :
    ∃ after, trackGas amount self = .ok paid after := by
  cases paid with
  | true => exact ⟨_, Receiver.trackGas_paid live (covers.mp rfl) fits⟩
  | false =>
      have short : (gas self).gasLeft < amount := by
        by_contra enough
        exact Bool.false_ne_true (covers.mpr (Int.not_lt.mp enough))
      obtain ⟨after, tracked, -⟩ := Receiver.trackGas_short live short
      exact ⟨after, tracked⟩

theorem stateGas_conserved (ran : Ran kind opening self) : Conserved opening self := by
  have kept := ran_kept ran
  obtain ⟨balance, reservoirNonneg, spilledNonneg, settled⟩ := kept.sound
  refine ⟨balance, reservoirNonneg, spilledNonneg, settled, ?settles, ?refilled, ?rewound, ?reverted,
    ?halted⟩
  case settles =>
    intro gasLimit stateGasCharged child live produced chargedFits paid covers fits
    obtain ⟨charged, tracked⟩ := trackGas_returns live covers fits.absorbed.gasLeft
    obtain ⟨after, returned, -⟩ := settleChild_returns kept.sound (produced_closed produced)
      chargedFits tracked fits
    exact ⟨after, returned⟩
  case refilled =>
    intro amount gasLimit charged later after child paid amountFits charge chargeFits unchanged
      produced failed ran fits
    have closed := produced_closed produced
    have chargedGas := trackStateGas_ok charge chargeFits
    have laterSame : (gas later).SameState ((gas self).charged amount true) := by
      rw [← chargedGas]
      exact unchanged
    have laterSound : (gas later).Sound opening :=
      (Counters.charged_sound kept.sound).of_same laterSame
    have exact := settleChild_exact laterSound closed amountFits ran fits
    have restored : ((gas later).settled gasLimit amount child paid).SameState (gas self) :=
      (Counters.settled_failed failed (closed.rewound failed)).trans
        ((Counters.refilled_same laterSame).trans (Counters.refilled_charged kept.sound))
    rw [SameStateGas, exact]
    exact restored
  case rewound =>
    intro status failed
    have rewound := finalizeStateGas_rewound failed kept.fits.gasReservoir kept.openingFits
      kept.nonneg kept.sound
    exact ⟨rewound.reservoir, rewound.spent, rewound.spilled⟩
  case reverted => exact unwindStateGas_gasLeft_true
  case halted =>
    rintro status (rfl | rfl)
    · exact unwindStateGas_gasLeft_false _
    · exact unwindStateGas_gasLeft_false _

instance (gas : Counters) : Decidable gas.Fits :=
  decidable_of_iff
    (FitsI64 gas.gasLeft ∧ FitsI64 gas.gasRefund ∧ FitsI64 gas.gasReservoir ∧
      FitsI64 gas.stateGasSpent ∧ FitsI64 gas.stateGasFromGasLeft)
    ⟨fun ⟨left, refund, reservoir, spent, spilled⟩ => ⟨left, refund, reservoir, spent, spilled⟩,
      fun ⟨left, refund, reservoir, spent, spilled⟩ => ⟨left, refund, reservoir, spent, spilled⟩⟩

/-- A frame started with 100 gas and a reservoir of 10 charges 15 for a call
that fails its precheck; the charge is refilled. -/
theorem stateGas_conserved_refilled :
    @Conserved 10 .frame ⟨.running, ⟨100, 0, 10, 0, 0⟩, []⟩ := by
  have opened : Ran .frame 10 (CallFrame.init ⟨100, 10⟩ [0xf1]) :=
    .frame ⟨100, 10⟩ [0xf1] (by decide) (by decide) (by decide)
  have charged : @Ran .frame 10 ⟨.running, ⟨95, 0, 0, 15, 5⟩, []⟩ :=
    .trackStateGas opened (show trackStateGas 15 _ = .ok true _ from rfl) (by decide)
  have produced : Produced 0 (answer ⟨20, 0⟩ ⟨.invalid, .insufficientBalance⟩ 20 false []) :=
    .answer ⟨20, 0⟩ _ 20 false [] (by decide)
  refine stateGas_conserved (.settleChild charged produced ?_
    (show settleChild 20 15 _ _ = .ok true _ from rfl) ⟨?_, ?_, ?_⟩) <;> decide

end Conservation

end EvmZig.Execution
