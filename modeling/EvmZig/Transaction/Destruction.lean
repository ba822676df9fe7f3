import EvmZig.Execution.Result
import EvmZig.State.Between
import EvmZig.Transaction.Transition

/-!
# Destroyed accounts and settlement (`src/transaction/transition.zig`)

A prepared transaction is charged, executed, finalised and settled, in this
order.  Finalisation deletes the destroyed accounts; the refund and the fee come
after it, and create an account anew where they credit a destroyed one.
-/

set_option autoImplicit false

namespace EvmZig.Transaction

open Zig
open EvmZig.Execution (Status)
open EvmZig.State (AccountFacts Config FinalizationRules Move SelfDestructFinalization WorldState)
open EvmZig.State.WorldState

structure ExecutionResult where
  status : Status
  gas : ExecutionGasResult
  deriving DecidableEq

/-- What a payload does to the state, and what it returns. -/
structure Payload where
  moves : List Move
  within : ∀ move ∈ moves, move.InScope False
  result : ExecutionResult

/-- `context.runPayload`, with the authorizations before it. -/
def runPayload (env : State.Env) (payload : Payload) : Transition ExecutionResult := fun self =>
  match ({ state := self } : Config).exec env payload.moves with
  | some ended => .ok payload.result ended.state
  | none => .illegal

def finalizeExecution (env : State.Env) (rules : FinalizationRules) : Transition Unit :=
  onState (finalizeLifecycle env rules)

def executionRolledBack : Status → Bool
  | .success => false
  | .revert | .invalid | .outOfGas => true

/-- `executePayload`; `executeAuthorizedPayload` ends in the same way. -/
def executePayload (env : State.Env) (rules : FinalizationRules) (payload : Payload) :
    Transition ExecutionResult := do
  let result ← runPayload env payload
  Action.when (executionRolledBack result.status = false) (finalizeExecution env rules)
  return result

def settleTransactionCosts (env : State.Env) (spec : Spec) (sender : Address) (plan : DefaultPlan)
    (result : ExecutionGasResult) : Transition ResultGas :=
  match spec.planCosts plan result with
  | none => Action.fail .overflow
  | some costs => do
      onState (addBalance env (plan.payer.getD sender) (word costs.payerRefund))
      Action.when (costs.feePayment = 0) (onState (observeAccountAccess env plan.feeRecipient))
      if costs.feePayment = 0 ∧ spec.settlement.touchesFeeRecipientOnZeroPayment = true then
        onState (touchAccount env plan.feeRecipient)
      else
        onState (addBalance env plan.feeRecipient (word costs.feePayment))
      return costs.gas

/-- The end of `executePrepared`: what was charged is settled, the rest only planned. -/
def settlePrepared (env : State.Env) (spec : Spec) (executable : Prepared) (transactionCharged : Bool)
    (result : ExecutionResult) : Transition (Status × ResultGas) :=
  if transactionCharged then do
    let resultGas ← settleTransactionCosts env spec executable.message.sender executable.settlement
      result.gas
    return (result.status, resultGas)
  else
    match spec.planCosts executable.settlement result.gas with
    | none => Action.fail .overflow
    | some costs => return (result.status, costs.gas)

def noGas : ExecutionGasResult := ⟨0, 0, 0, 0⟩

/-- The payload is given the gas it runs with; it starts with the nonce and the access list. -/
def executePrepared (env : State.Env) (spec : Spec) (rules : FinalizationRules)
    (executable : Prepared) (payload : ExecutionGas → Payload) : Transition (Status × ResultGas) :=
  match executable.executionGas with
  | none => settlePrepared env spec executable false ⟨.outOfGas, noGas⟩
  | some gas => do
      let transactionCharged ←
        chargeTransactionCosts env executable.message.sender executable.settlement
      if transactionCharged then
        let result ← executePayload env rules (payload gas)
        settlePrepared env spec executable true result
      else
        settlePrepared env spec executable false ⟨.invalid, noGas⟩

/-! ## Settlement -/

/-- What settlement credits to an address. -/
def settlementCredit (sender : Address) (plan : DefaultPlan) (costs : DefaultCosts)
    (address : Address) : Nat :=
  (if address = plan.payer.getD sender then costs.payerRefund else 0) +
    if address = plan.feeRecipient then costs.feePayment else 0

/-- Settlement touches an account it does not credit. -/
def settlementTouches (spec : Spec) (plan : DefaultPlan) (costs : DefaultCosts)
    (address : Address) : Prop :=
  costs.feePayment = 0 ∧ spec.settlement.touchesFeeRecipientOnZeroPayment = true ∧
    address = plan.feeRecipient

section Settling

variable {env : State.Env} {spec : Spec} {sender : Address} {plan : DefaultPlan}
  {result : ExecutionGasResult} {costs : DefaultCosts} {self after : WorldState} {gas : ResultGas}

theorem checkedGasCost_lt {gas price cost : Nat} (priced : checkedGasCost gas price = some cost) :
    cost < 2 ^ 256 := by
  unfold checkedGasCost mulChecked at priced
  split at priced
  · rename_i fits
    obtain rfl := Option.some.inj priced
    exact fits
  · cases priced

theorem planCosts_lt (planned : spec.planCosts plan result = some costs) :
    costs.payerRefund < 2 ^ 256 ∧ costs.feePayment < 2 ^ 256 := by
  unfold Spec.planCosts calculateDefaultCosts at planned
  obtain ⟨payerRefund, refund, planned⟩ := Option.bind_eq_some_iff.mp planned
  obtain ⟨feePayment, fee, planned⟩ := Option.bind_eq_some_iff.mp planned
  obtain rfl := Option.some.inj planned
  exact ⟨checkedGasCost_lt refund, checkedGasCost_lt fee⟩

/-- The refund reaches the payer. -/
theorem refund_ran {address payer : Address} {amount : Nat} (fits : amount < 2 ^ 256)
    (ran : addBalance env payer (word amount) self = .ok () after)
    (absent : (self.factsAt env address).current = none) :
    (balanceOf (after.factsAt env address).current).val = (if address = payer then amount else 0) ∧
      ((after.factsAt env address).current = none ↔ (if address = payer then amount else 0) = 0) ∧
      (after.factsAt env address).touched = (self.factsAt env address).touched := by
  obtain ⟨below, found⟩ := addBalance_ran ran
  rw [found]
  by_cases same : address = payer
  · subst same
    simp only [if_true]
    refine ⟨?_, ?_, AccountFacts.credited_touched _ _⟩
    · rw [AccountFacts.credited_balance below, absent, word_val fits]
      exact Nat.zero_add _
    · rw [AccountFacts.credited_absent, Fin.ext_iff, word_val fits]
      exact ⟨fun both => both.2, fun zero => ⟨absent, zero⟩⟩
  · simp only [if_neg same, absent]
    exact ⟨rfl, trivial, trivial⟩

theorem settleTransactionCosts_planned
    (ran : settleTransactionCosts env spec sender plan result self = .ok gas after) :
    ∃ costs, spec.planCosts plan result = some costs := by
  unfold settleTransactionCosts at ran
  cases planned : spec.planCosts plan result with
  | none =>
      rw [planned] at ran
      cases ran
  | some costs => exact ⟨costs, rfl⟩

/-- The access to a recipient without a fee changes no account. -/
theorem feeAccess_facts {fee : Nat} {recipient : Address}
    (ran : Action.when (fee = 0) (onState (observeAccountAccess env recipient)) self = .ok () after)
    (address : Address) : after.factsAt env address = self.factsAt env address := by
  unfold Action.when at ran
  split at ran
  · exact (reading_ok (accounts_of_changes (by exact id)
      (Op.run_changes (.observeAccountAccess recipient) trivial)) (onState_ok.mp ran)).facts address id
  · cases ran
    rfl

/-- Settlement of an account that does not exist. -/
theorem settleTransactionCosts_ran {address : Address}
    (ran : settleTransactionCosts env spec sender plan result self = .ok gas after)
    (absent : self.accountValue env address = none) :
    ∀ costs, spec.planCosts plan result = some costs →
      (balanceOf (after.accountValue env address)).val = settlementCredit sender plan costs address ∧
      (after.accountValue env address = none ↔
        settlementCredit sender plan costs address = 0 ∧
          (settlementTouches spec plan costs address →
            (self.factsAt env address).touched = true)) := by
  intro costs planned
  unfold settleTransactionCosts at ran
  rw [planned] at ran
  obtain ⟨refundFits, feeFits⟩ := planCosts_lt planned
  obtain ⟨⟨⟩, refunded, refund, ran⟩ := Action.bind_eq_ok.mp ran
  obtain ⟨balance, exists_, touched⟩ := refund_ran refundFits (onState_ok.mp refund) absent
  obtain ⟨⟨⟩, observed, access, ran⟩ := Action.bind_eq_ok.mp ran
  rw [← feeAccess_facts access address] at balance exists_ touched
  by_cases touches : costs.feePayment = 0 ∧
      spec.settlement.touchesFeeRecipientOnZeroPayment = true
  · rw [if_pos touches] at ran
    obtain ⟨⟨⟩, paid, pays, ran⟩ := Action.bind_eq_ok.mp ran
    cases ran
    rw [← factsAt_current]
    have found := touchAccount_ran (onState_ok.mp pays) address
    rw [found, settlementCredit, touches.1, ite_self, Nat.add_zero]
    by_cases recipient : address = plan.feeRecipient
    · subst recipient
      rw [if_pos rfl, AccountFacts.touch_balance, AccountFacts.touch_absent, exists_, touched]
      exact ⟨balance, and_congr_right fun _ =>
        ⟨fun already _ => already, fun already => already ⟨touches.1, touches.2, rfl⟩⟩⟩
    · rw [if_neg recipient, exists_]
      exact ⟨balance, iff_self_and.mpr fun _ touched => absurd touched.2.2 recipient⟩
  · rw [if_neg touches] at ran
    obtain ⟨⟨⟩, paid, pays, ran⟩ := Action.bind_eq_ok.mp ran
    cases ran
    rw [← factsAt_current]
    obtain ⟨below, found⟩ := addBalance_ran (onState_ok.mp pays)
    have untouched : settlementTouches spec plan costs address →
        (self.factsAt env address).touched = true :=
      fun touched => absurd ⟨touched.1, touched.2.1⟩ touches
    rw [found, settlementCredit]
    by_cases recipient : address = plan.feeRecipient
    · subst recipient
      rw [if_pos rfl, if_pos rfl, AccountFacts.credited_balance below, balance, word_val feeFits,
        AccountFacts.credited_absent, exists_, Nat.add_eq_zero_iff]
      refine ⟨rfl, ?_⟩
      rw [Fin.ext_iff, word_val feeFits]
      exact ⟨fun both => ⟨both, untouched⟩, fun both => both.1⟩
    · rw [if_neg recipient, if_neg recipient, Nat.add_zero, exists_]
      exact ⟨balance, fun zero => ⟨zero, untouched⟩, fun both => both.1⟩

end Settling

/-! ## Destroyed accounts -/

/-- The account is marked self-destructed, and the policy for it deletes it. -/
def Destroyed (rules : FinalizationRules) (facts : AccountFacts) : Prop :=
  facts.marks.selfdestructed = true ∧
    (if facts.marks.created then rules.createdAccount else rules.existingAccount).resetAccount = false ∧
    (if facts.marks.created then rules.createdAccount else rules.existingAccount).deleteAccount = true

instance (rules : FinalizationRules) (facts : AccountFacts) : Decidable (Destroyed rules facts) :=
  inferInstanceAs (Decidable (_ ∧ _ ∧ _))

theorem Destroyed.finalized {rules : FinalizationRules} {facts : AccountFacts}
    (destroyed : Destroyed rules facts) :
    (facts.finalized rules).current = none ∧ (facts.finalized rules).touched = facts.touched := by
  obtain ⟨marked, keeps, deletes⟩ := destroyed
  rw [AccountFacts.finalized_selfdestructed (by rw [marked]; exact Bool.noConfusion)]
  refine ⟨?_, rfl⟩
  dsimp only [SelfDestructFinalization.leaves]
  rw [if_neg (by rw [keeps]; exact Bool.false_ne_true), if_pos deletes]

section Executing

variable {env : State.Env} {rules : FinalizationRules} {sender : Address} {plan : DefaultPlan}
  {payload : Payload} {self after : WorldState} {charged : Bool} {result : ExecutionResult}

theorem chargeTransactionCosts_kept
    (ran : chargeTransactionCosts env sender plan self = .ok charged after) :
    KeepsAccounts env (fun _ => True) self after := by
  unfold chargeTransactionCosts at ran
  dsimp only at ran
  split at ran
  · cases ran
    exact .refl self
  · obtain ⟨account, middle, summary, ran⟩ := Action.bind_eq_ok.mp ran
    obtain ⟨-, kept⟩ := getAccount_ok (onState_ok.mp summary)
    cases account with
    | none =>
        cases ran
        exact kept.widen
    | some payer =>
        dsimp only at ran
        split at ran
        · cases ran
          exact kept.widen
        · have paid : KeepsAccounts env (· = (planPrecharge plan).payer.getD sender) _ _ :=
            (keeps_ok (subtractBalance_accounts _ _) trivial (onState_ok.mp ran)).1
          exact kept.widen.trans ⟨paid.toSameLifecycle, paid.key,
            fun address outside => absurd trivial outside, paid.marks, paid.stamp, paid.undos⟩

theorem runPayload_listed (held : Listed env self)
    (ran : runPayload env payload self = .ok result after) :
    result = payload.result ∧ Listed env after := by
  unfold runPayload at ran
  cases run : ({ state := self } : Config).exec env payload.moves with
  | none =>
      rw [run] at ran
      cases ran
  | some ended =>
      rw [run] at ran
      cases ran
      have within : ∀ move ∈ payload.moves, move.Within := by
        intro move member
        have inScope := payload.within move member
        cases move with
        | openSession => trivial
        | closeSession => trivial
        | sealAttempt => trivial
        | _ => exact inScope
      exact ⟨rfl, Config.listed_exec held within run⟩

/-- A payload that succeeds is finalised. -/
theorem executePayload_success (held : Listed env self)
    (ran : executePayload env rules payload self = .ok result after)
    (success : result.status = .success) :
    ∃ ended, runPayload env payload self = .ok payload.result ended ∧ result = payload.result ∧
      ∀ address, after.factsAt env address = (ended.factsAt env address).finalized rules := by
  obtain ⟨given, ended, payloadRan, ran⟩ := Action.bind_eq_ok.mp ran
  obtain ⟨rfl, listed⟩ := runPayload_listed held payloadRan
  obtain ⟨⟨⟩, finalized, finalizes, ran⟩ := Action.bind_eq_ok.mp ran
  cases ran
  rw [Action.when, if_pos (by rw [success]; rfl)] at finalizes
  exact ⟨ended, payloadRan, rfl, finalizeLifecycle_ran listed (onState_ok.mp finalizes)⟩

/-- Settlement reports the status it is given. -/
theorem settlePrepared_status {spec : Spec} {executable : Prepared} {status : Status} {gas : ResultGas}
    (ran : settlePrepared env spec executable charged result self = .ok (status, gas) after) :
    status = result.status := by
  unfold settlePrepared at ran
  split at ran
  · obtain ⟨resultGas, settled, -, ran⟩ := Action.bind_eq_ok.mp ran
    cases ran
    rfl
  · cases planned : spec.planCosts executable.settlement result.gas with
    | none =>
        rw [planned] at ran
        cases ran
    | some costs =>
        rw [planned] at ran
        cases ran
        rfl

end Executing

/-- An account destroyed by a payload exists after the transaction where settlement credits or
touches it, with what settlement credits and nothing else. -/
theorem destroyed_until_settled (env : State.Env) (spec : Spec) (rules : FinalizationRules)
    (executable : Prepared) (payload : ExecutionGas → Payload) (start after : WorldState)
    (observe : Bool) (before : List Move) (entered : Config) (gas : ResultGas)
    (unmarked : Unmarked env start) (within : ∀ move ∈ before, move.Within)
    (begun : ({ state := start } : Config).exec env (.beginAttempt observe :: before) = some entered)
    (ran : executePrepared env spec rules executable payload entered.state =
      .ok (.success, gas) after) :
    ∃ charged executionGas ended costs,
      executable.executionGas = some executionGas ∧
      chargeTransactionCosts env executable.message.sender executable.settlement entered.state =
        .ok true charged ∧
      runPayload env (payload executionGas) charged = .ok (payload executionGas).result ended ∧
      spec.planCosts executable.settlement (payload executionGas).result.gas = some costs ∧
      ∀ address, Destroyed rules (ended.factsAt env address) →
        (balanceOf (after.accountValue env address)).val =
          settlementCredit executable.message.sender executable.settlement costs address ∧
        (after.accountValue env address = none ↔
          settlementCredit executable.message.sender executable.settlement costs address = 0 ∧
            (settlementTouches spec executable.settlement costs address →
              (ended.factsAt env address).touched = true)) := by
  have listed := Config.attempt_listed unmarked within begun
  unfold executePrepared at ran
  cases planned : executable.executionGas with
  | none =>
      rw [planned] at ran
      exact nomatch settlePrepared_status ran
  | some executionGas =>
      rw [planned] at ran
      obtain ⟨wasCharged, charged, charge, ran⟩ := Action.bind_eq_ok.mp ran
      cases wasCharged with
      | false =>
          rw [if_neg Bool.false_ne_true] at ran
          exact nomatch settlePrepared_status ran
      | true =>
          obtain ⟨result, finalized, executes, ran⟩ := Action.bind_eq_ok.mp ran
          have success : result.status = .success := (settlePrepared_status ran).symm
          have chargedListed := (chargeTransactionCosts_kept charge).listing listed
          obtain ⟨ended, payloadRan, rfl, facts⟩ :=
            executePayload_success chargedListed executes success
          obtain ⟨resultGas, settled, settles, reports⟩ := Action.bind_eq_ok.mp ran
          obtain ⟨-, rfl⟩ := Outcome.ok.inj reports
          obtain ⟨costs, costsPlanned⟩ := settleTransactionCosts_planned settles
          refine ⟨charged, executionGas, ended, costs, rfl, charge, payloadRan, costsPlanned, ?_⟩
          intro address destroyed
          obtain ⟨absent, touched⟩ := destroyed.finalized
          rw [← facts] at absent touched
          obtain ⟨balance, gone⟩ := settleTransactionCosts_ran settles absent costs costsPlanned
          rw [touched] at gone
          exact ⟨balance, gone⟩

/-! ### A fee recipient that destroys itself -/

def legacySelfDestructFinalization (_ : Bool) : SelfDestructFinalization :=
  { deleteAccount := true, clearStorage := true }

def finalizationRules (finalization : Bool → SelfDestructFinalization) : FinalizationRules where
  existingAccount := finalization false
  createdAccount := finalization true

def doomed : Address := ⟨List.replicate 20 2, rfl⟩

/-- The payload of a call whose recipient destroys itself. -/
def destroysDoomed : Payload where
  moves := [.checkpoint, .call (.applySelfDestruct doomed holder ⟨true, true⟩ false),
    .commitCheckpoint]
  within := by
    intro move member
    simp only [List.mem_cons, List.not_mem_nil, or_false] at member
    rcases member with rfl | rfl | rfl
    · trivial
    · exact False.elim
    · trivial
  result := ⟨.success, noGas⟩

/-- The transfer of five, paying its fee to the account it calls. -/
def feeToDoomed : PrepareInput :=
  { transferOfFive with env := { coinbase := doomed, baseFee := 7 } }

def doomedRules : FinalizationRules := finalizationRules legacySelfDestructFinalization

def prepareDoomed : Option (PrepareResult × WorldState) :=
  ((specAt .london).prepare (fun sender _ => sender)
    ⟨accountSummary endowed, fun _ _ => pure []⟩ feeToDoomed (WorldState.init endowed [])).toOption

def enterDoomed : Option Config :=
  ({ state := WorldState.init endowed [] } : Config).exec endowed [.beginAttempt false, .openSession]

/-- The run of the transaction, with the balance it leaves the destroyed account. -/
theorem doomed_ran : ∃ prepared summarised entered charged ended gas after,
    prepareDoomed = some (.executable prepared, summarised) ∧
    enterDoomed = some entered ∧
    chargeTransactionCosts endowed prepared.message.sender prepared.settlement entered.state =
      .ok true charged ∧
    runPayload endowed destroysDoomed charged = .ok destroysDoomed.result ended ∧
    Destroyed doomedRules (ended.factsAt endowed doomed) ∧
    executePrepared endowed (specAt .london) doomedRules prepared (fun _ => destroysDoomed)
      entered.state = .ok (.success, gas) after ∧
    (after.accountValue endowed doomed).map (·.balance) = some 63000 := by
  have values : (prepareDoomed.bind fun preparation =>
      enterDoomed.bind fun entered =>
        match preparation.1 with
        | .rejected _ => none
        | .executable prepared =>
            (chargeTransactionCosts endowed prepared.message.sender prepared.settlement
              entered.state).toOption.bind fun charge =>
            (runPayload endowed destroysDoomed charge.2).toOption.bind fun payload =>
            (executePrepared endowed (specAt .london) doomedRules prepared (fun _ => destroysDoomed)
              entered.state).toOption.map fun ending =>
              (charge.1, decide (payload.1 = destroysDoomed.result),
                decide (Destroyed doomedRules (payload.2.factsAt endowed doomed)),
                decide (ending.1.1 = .success),
                (ending.2.accountValue endowed doomed).map (·.balance))) =
      some (true, true, true, true, some 63000) := by decide +kernel
  obtain ⟨⟨preparation, summarised⟩, prepares, values⟩ := Option.bind_eq_some_iff.mp values
  obtain ⟨entered, enters, values⟩ := Option.bind_eq_some_iff.mp values
  cases preparation with
  | rejected reason => cases values
  | executable prepared =>
      obtain ⟨⟨isCharged, charged⟩, charge, values⟩ := Option.bind_eq_some_iff.mp values
      obtain ⟨⟨result, ended⟩, payload, values⟩ := Option.bind_eq_some_iff.mp values
      obtain ⟨⟨⟨status, gas⟩, after⟩, ran, values⟩ := Option.map_eq_some_iff.mp values
      simp only [Prod.mk.injEq, decide_eq_true_eq] at values
      obtain ⟨rfl, rfl, destroyed, rfl, balance⟩ := values
      exact ⟨prepared, summarised, entered, charged, ended, gas, after, prepares, enters,
        Outcome.toOption_eq_some.mp charge, Outcome.toOption_eq_some.mp payload, destroyed,
        Outcome.toOption_eq_some.mp ran, balance⟩

/-- The destroyed account receives the fee and exists again. -/
theorem destroyed_recipient_survives : ∃ prepared summarised entered charged ended gas after,
    prepareDoomed = some (.executable prepared, summarised) ∧
    enterDoomed = some entered ∧
    chargeTransactionCosts endowed prepared.message.sender prepared.settlement entered.state =
      .ok true charged ∧
    runPayload endowed destroysDoomed charged = .ok destroysDoomed.result ended ∧
    Destroyed doomedRules (ended.factsAt endowed doomed) ∧
    executePrepared endowed (specAt .london) doomedRules prepared (fun _ => destroysDoomed)
      entered.state = .ok (.success, gas) after ∧
    after.accountValue endowed doomed ≠ none := by
  obtain ⟨prepared, summarised, entered, charged, ended, gas, after, prepares, enters, charge,
    payload, destroyed, ran, balance⟩ := doomed_ran
  refine ⟨prepared, summarised, entered, charged, ended, gas, after, prepares, enters, charge,
    payload, destroyed, ran, fun absent => ?_⟩
  rw [absent] at balance
  cases balance

theorem destroyed_until_settled_london : ∃ (prepared : Prepared) (costs : DefaultCosts)
    (after : WorldState), after.accountValue endowed doomed ≠ none ∧
      (balanceOf (after.accountValue endowed doomed)).val =
        settlementCredit prepared.message.sender prepared.settlement costs doomed := by
  obtain ⟨prepared, summarised, entered, charged, ended, gas, after, prepares, enters, charge,
    payload, destroyed, ran, balance⟩ := doomed_ran
  have unmarked : Unmarked endowed (WorldState.init endowed []) :=
    (@State.Between.init ⟨endowed, [], trivial⟩).rested.unmarked
  have within : ∀ move ∈ [Move.openSession], move.Within := by
    intro move member
    rw [List.mem_singleton.mp member]
    trivial
  obtain ⟨other, executionGas, last, costs, -, otherCharge, otherPayload, -, settled⟩ :=
    destroyed_until_settled endowed (specAt .london) doomedRules prepared (fun _ => destroysDoomed)
      (WorldState.init endowed []) after false [.openSession] entered gas unmarked within enters ran
  obtain ⟨-, rfl⟩ := Outcome.ok.inj (otherCharge.symm.trans charge)
  obtain ⟨-, rfl⟩ := Outcome.ok.inj (otherPayload.symm.trans payload)
  refine ⟨prepared, costs, after, fun absent => ?_, (settled doomed destroyed).1⟩
  rw [absent] at balance
  cases balance

end EvmZig.Transaction
