import EvmZig.Transaction.Acceptance
import EvmZig.State.Values

/-!
# The transaction transition (`src/transaction/transition.zig`)

What a transaction does to the state around its payload: the charge up front,
and the refund and the fee at the end.
-/

set_option autoImplicit false

namespace EvmZig.Transaction

open Zig
open EvmZig.State (Account CodeHash StateError WorldState)
open EvmZig.State.WorldState (getAccount addBalance subtractBalance touchAccount accounts reading
  factsAt balanceOf)

inductive TransitionError where
  | state (error : StateError)
  | overflow
  deriving DecidableEq

abbrev Transition (α : Type) : Type := Action WorldState TransitionError α

/-- A call on the state. -/
def onState {α : Type} (body : State.Method α) : Transition α := Action.widen .state body

/-- The amount as a `u256`; the amounts of a plan are below `2 ^ 256`. -/
def word (amount : Nat) : U256 := Fin.ofNat (2 ^ 256) amount

theorem word_val {amount : Nat} (fits : amount < 2 ^ 256) : (word amount).val = amount :=
  Nat.mod_eq_of_lt fits

/-- `context.accountSummary` and `context.preparationState().accountSummary`. -/
def accountSummary (env : State.Env) (address : Address) : State.Method (Option Account) :=
  getAccount env address

def chargeTransactionCosts (env : State.Env) (sender : Address) (plan : DefaultPlan) :
    Transition Bool := do
  let precharge := planPrecharge plan
  let requiredBalance := max precharge.minimumBalance precharge.upfrontDebit
  if requiredBalance = 0 then return true
  else
    let payer := precharge.payer.getD sender
    match ← onState (accountSummary env payer) with
    | none => return false
    | some payerAccount =>
        if payerAccount.balance.val < requiredBalance then return false
        else onState (subtractBalance env payer (word precharge.upfrontDebit))

section Charging

variable {env : State.Env} {self after : WorldState} {α : Type}

theorem onState_ok {body : State.Method α} {value : α} :
    onState body self = .ok value after ↔ body self = .ok value after := by
  unfold onState Action.widen
  cases body self <;> simp

/-- Charging a plan returns where the two calls on the state do, and then it
returns true and has taken the upfront debit from the payer. -/
structure Chargeable (env : State.Env) (sender payer : Address) (plan : DefaultPlan)
    (self : WorldState) : Prop where
  returns : ∀ account middle paid last,
    accountSummary env payer self = .ok account middle →
    subtractBalance env payer (word plan.upfrontDebit) middle = .ok paid last →
    ∃ charged after, chargeTransactionCosts env sender plan self = .ok charged after
  takes : ∀ charged after, chargeTransactionCosts env sender plan self = .ok charged after →
    charged = true ∧ (balanceOf (after.accountValue env payer)).val + plan.upfrontDebit =
      (balanceOf (self.accountValue env payer)).val

section Covered

variable {sender payer : Address} {plan : DefaultPlan} (paid : plan.payer = some payer)
  (within : plan.upfrontDebit ≤ plan.minimumBalance)

include paid within

theorem chargeTransactionCosts_plan : chargeTransactionCosts env sender plan =
    if plan.minimumBalance = 0 then pure true
    else
      onState (accountSummary env payer) >>= fun
        | none => return false
        | some payerAccount =>
            if payerAccount.balance.val < plan.minimumBalance then return false
            else onState (subtractBalance env payer (word plan.upfrontDebit)) := by
  unfold chargeTransactionCosts
  simp only [planPrecharge, paid, Option.getD_some, max_eq_left within]

/-- A payer whose balance covers the plan is charged. -/
theorem chargeTransactionCosts_covered
    (covered : plan.minimumBalance ≤ (balanceOf (self.accountValue env payer)).val) :
    Chargeable env sender payer plan self where
  returns := by
    intro account middle moved left summary subtracted
    rw [chargeTransactionCosts_plan paid within]
    split
    case isTrue => exact ⟨_, _, rfl⟩
    case isFalse =>
      have summary := onState_ok.mpr summary
      have subtracted := onState_ok.mpr subtracted
      cases account with
      | none => exact ⟨_, _, Action.bind_eq_ok.mpr ⟨_, _, summary, rfl⟩⟩
      | some payerAccount =>
          by_cases short : payerAccount.balance.val < plan.minimumBalance
          · exact ⟨_, _, Action.bind_eq_ok.mpr ⟨_, _, summary, congrFun (if_pos short) middle⟩⟩
          · exact ⟨_, _, Action.bind_eq_ok.mpr
              ⟨_, _, summary, (congrFun (if_neg short) middle).trans subtracted⟩⟩
  takes := by
    intro charged after ran
    have below := (balanceOf (self.accountValue env payer)).isLt
    rw [chargeTransactionCosts_plan paid within] at ran
    split at ran
    case isTrue free =>
      cases ran
      refine ⟨rfl, ?_⟩
      omega
    case isFalse required =>
      obtain ⟨account, middle, summary, ran⟩ := Action.bind_eq_ok.mp ran
      obtain ⟨found, kept⟩ := WorldState.getAccount_ok (onState_ok.mp summary)
      cases account with
      | none =>
          rw [← found] at covered
          have zero : plan.minimumBalance ≤ 0 := covered
          omega
      | some payerAccount =>
          rw [← found] at covered below ⊢
          have covered : plan.minimumBalance ≤ payerAccount.balance.val := covered
          have debit := @word_val plan.upfrontDebit (by omega)
          dsimp only at ran
          rw [if_neg (Nat.not_lt.mpr covered)] at ran
          have enough : word plan.upfrontDebit ≤ balanceOf (middle.accountValue env payer) := by
            rw [kept.value id, ← found, Fin.le_def, debit]
            exact within.trans covered
          obtain ⟨done, left⟩ := WorldState.subtractBalance_ok enough (onState_ok.mp ran)
          rw [debit, kept.value id, ← found] at left
          exact ⟨done, left⟩

end Covered

end Charging

/-! ## Preparation -/

namespace Spec

variable {spec : Spec} {σ ε : Type} {create : Address → U64 → Address}
  {state : PreparationStateAccess σ ε} {input : PrepareInput} {self after : σ} {prepared : Prepared}

/-- What preparation read and checked when it returned an executable. -/
theorem prepare_executable
    (ran : spec.prepare create state input self = .ok (.executable prepared) after) :
    ∃ gasPlan account middle, Accepted spec input gasPlan account ∧
      state.accountSummary input.tx.sender self = .ok account middle ∧
      ∃ senderNonce, prepared = spec.executable create input gasPlan senderNonce := by
  unfold prepare at ran
  dsimp only at ran
  cases planned : spec.inputGasPlan (validationInput input) with
  | none =>
      rw [planned] at ran
      cases ran
  | some gasPlan =>
      rw [planned] at ran
      dsimp only at ran
      cases before : spec.validateBeforeAccount (validationInput input) gasPlan with
      | some err =>
          rw [before] at ran
          cases ran
      | none =>
          rw [before] at ran
          dsimp only at ran
          obtain ⟨account, middle, summary, ran⟩ := Action.bind_eq_ok.mp ran
          cases funded : spec.validateAfterAccount ((validationInput input).withSender account) with
          | some err =>
              rw [funded] at ran
              cases ran
          | none =>
              rw [funded] at ran
              obtain ⟨codeKind, last, -, ran⟩ := Action.bind_eq_ok.mp ran
              cases allowed : validateSenderCode
                  (((validationInput input).withSender account).withCodeKind codeKind)
                  (spec.transaction.rejectsNonDelegatingSenderCode input.tx.kind) with
              | some err =>
                  rw [allowed] at ran
                  cases ran
              | none =>
                  rw [allowed] at ran
                  cases ran
                  exact ⟨gasPlan, account, middle, ⟨planned, before, funded⟩, summary, _, rfl⟩

end Spec

/-! ## Accepted transactions are chargeable -/

/-- A prepared transaction has gas to execute with, exact amounts within the
sender's balance, and a price that covers the base fee; charging it returns true and
takes the upfront debit. -/
theorem prepared_chargeable (env : State.Env) (create : Address → U64 → Address)
    (code : Address → CodeHash → State.Method (List UInt8)) (revision : Revision)
    (input : PrepareInput) (prepared : Prepared) (self after : WorldState)
    (ofKind : FieldsOfKind input.tx)
    (inactive : (specAt revision).settlement.baseFeeActive = false → input.env.baseFee = 0)
    (ran : (specAt revision).prepare create ⟨accountSummary env, code⟩ input self =
      .ok (.executable prepared) after) :
    (∃ gas, prepared.executionGas = some gas) ∧
    (∃ blobGas,
      blobGasForCount (specAt revision).transaction.blobSchedule input.tx.blobHashes.length =
        some blobGas ∧
      prepared.settlement.upfrontDebit = input.tx.gasLimit.val * prepared.settlement.gasPrice +
        blobGas * input.env.blobBaseFee.val) ∧
    prepared.settlement.minimumBalance =
      prepared.settlement.upfrontDebit + input.tx.value.val ∧
    prepared.settlement.minimumBalance ≤
      (balanceOf (self.accountValue env input.tx.sender)).val ∧
    prepared.settlement.payer = some input.tx.sender ∧
    (∀ state : WorldState,
      state.accountValue env input.tx.sender = self.accountValue env input.tx.sender →
      Chargeable env prepared.message.sender input.tx.sender prepared.settlement state) ∧
    prepared.settlement.gasPrice = effectiveGasPrice input.env (transactionView input.tx) ∧
    input.env.baseFee.val ≤ prepared.settlement.gasPrice ∧
    prepared.settlement.priorityFee = prepared.settlement.gasPrice - input.env.baseFee.val := by
  obtain ⟨gasPlan, account, middle, accepted, summary, senderNonce, rfl⟩ :=
    Spec.prepare_executable ran
  obtain ⟨found, -⟩ := WorldState.getAccount_ok summary
  obtain ⟨blobGas, affordable⟩ := accepted.affordable ofKind
  have balance : Spec.senderBalance account = balanceOf (self.accountValue env input.tx.sender) := by
    rw [← found]
    cases account <;> rfl
  rw [balance] at affordable
  obtain ⟨exact, covered⟩ := @Spec.Affordable.exact _ _ gasPlan _ _ affordable
  have upfrontWithin : ((specAt revision).settlementPlan input gasPlan).upfrontDebit ≤
      ((specAt revision).settlementPlan input gasPlan).minimumBalance := by
    rw [exact.minimum]
    exact Nat.le_add_right _ _
  have shares : ((specAt revision).settlementPlan input gasPlan).priorityFee +
      (if (specAt revision).settlement.baseFeeActive then input.env.baseFee.val else 0) =
        ((specAt revision).settlementPlan input gasPlan).gasPrice := affordable.shares
  have burnt : (if (specAt revision).settlement.baseFeeActive then input.env.baseFee.val else 0) =
      input.env.baseFee.val := by
    cases active : (specAt revision).settlement.baseFeeActive with
    | true => rfl
    | false =>
        rw [inactive active]
        rfl
  rw [burnt] at shares
  refine ⟨accepted.executes (specAt_capCovers revision), ⟨blobGas, affordable.counted, exact.upfront⟩,
    exact.minimum, covered, rfl, ?_, rfl, ?_, ?_⟩
  case refine_1 =>
    intro state same
    apply chargeTransactionCosts_covered rfl upfrontWithin
    show _ ≤ (balanceOf (state.accountValue env input.tx.sender)).val
    rw [same]
    exact covered
  case refine_2 => exact shares ▸ Nat.le_add_left _ _
  case refine_3 => exact Nat.eq_sub_of_add_eq shares

/-- An open world whose parent gives every account a balance. -/
def endowed : State.Env where
  keccak256 _ := State.keccak256Empty
  parent := .openWorld (some {
    loadAccount := fun _ => some { balance := 1000000 }
    loadCode := fun _ => []
    loadCodeValidatesHash := true
    getStorage := fun _ _ => 0 }) false
  grants _ := true

def holder : Address := ⟨List.replicate 20 1, length_ones⟩

/-- A transfer above a base fee of seven. -/
def transferOfFive : PrepareInput where
  tx := { sender := holder, gasLimit := 21000, recipient := some holder, value := 5, gasPrice := 10 }
  env := { coinbase := holder, baseFee := 7 }
  block := {}

theorem prepared_chargeable_london : ∃ prepared after,
    (specAt .london).prepare (fun sender _ => sender)
      ⟨accountSummary endowed, fun _ _ => pure []⟩ transferOfFive (WorldState.init endowed []) =
        .ok (.executable prepared) after ∧
    Chargeable endowed prepared.message.sender holder prepared.settlement
      (WorldState.init endowed []) ∧
    7 ≤ prepared.settlement.gasPrice := by
  have executes : ∃ prepared after, (specAt .london).prepare (fun sender _ => sender)
      ⟨accountSummary endowed, fun _ _ => pure []⟩ transferOfFive (WorldState.init endowed []) =
        .ok (.executable prepared) after := ⟨_, _, rfl⟩
  obtain ⟨prepared, after, ran⟩ := executes
  have ofKind : FieldsOfKind transferOfFive.tx := ⟨fun _ => ⟨rfl, rfl⟩, fun _ => ⟨rfl, rfl⟩⟩
  have inactive : (specAt .london).settlement.baseFeeActive = false →
      transferOfFive.env.baseFee = 0 := by decide
  obtain ⟨-, -, -, -, -, charges, -, covered, -⟩ := prepared_chargeable endowed
    (fun sender _ => sender) (fun _ _ => pure []) .london transferOfFive prepared
    (WorldState.init endowed []) after ofKind inactive ran
  exact ⟨prepared, after, ran, charges _ rfl, covered⟩

end EvmZig.Transaction
