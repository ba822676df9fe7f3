import EvmZig.State.AccountEffects
import EvmZig.Bal.Observation

/-!
# Account effects over runs

The starting accounts of an attempt are kept beside the run, with whether its
finalisations so far spared every absent account.  While they did, the records
show every account that differs.
-/

set_option autoImplicit false

namespace EvmZig.State

open Lib Zig Bal

namespace WorldState

variable {env : Env} {self : WorldState} {start : Address → Option Account}

/-! ## What the records show -/

/-- What `accountFields` gives for a record shows how the account differs from its original. -/
structure Shows (record : AccountObservationRecord) (fields : AccountFields) : Prop where
  balance : (accountOrZero record.original).balance ≠ (accountOrZero record.current).balance →
    fields.balance = some ⟨(accountOrZero record.original).balance,
      (accountOrZero record.current).balance⟩
  nonce : record.effect.storageWiped = false →
    (accountOrZero record.original).nonce ≠ (accountOrZero record.current).nonce →
    fields.nonce = some ⟨(accountOrZero record.original).nonce, (accountOrZero record.current).nonce⟩
  code : record.effect.storageWiped = false →
    (accountOrZero record.original).codeHash ≠ (accountOrZero record.current).codeHash →
    ∃ bytes, fields.code = some ⟨(accountOrZero record.original).codeHash,
      (accountOrZero record.current).codeHash, bytes⟩

namespace Audited

end Audited

/-! ## Runs -/

/-- An attempt starts with no record and no entry. -/
theorem audited_begun {observe : Bool} (aged : Aged self) (journal : self.journal = []) :
    Audited env (fun address => (self.accountAt env address).current) (begun observe self) := by
  have unstamped : ∀ {id : AccountId} {row : AccountRow}, self.world.accounts.row id = some row →
      row.observation.transaction ≠ self.clock + 1 := by
    intro id row held
    exact Nat.ne_of_lt (Nat.lt_succ_of_le (aged.account id row held).observed)
  have unchanged : ∀ {id : AccountId} {row : AccountRow}, self.world.accounts.row id = some row →
      row.dirtyTransaction ≠ self.clock + 1 := by
    intro id row held
    exact Nat.ne_of_lt (Nat.lt_succ_of_le (aged.account id row held).dirty)
  have none : ∀ {entry : Entry}, entry ∉ (begun observe self).journal := by
    intro entry member
    exact nomatch (journal ▸ member : entry ∈ ([] : Journal))
  refine ⟨⟨Nat.succ_pos _, fun id row held same => absurd same (unstamped held),
    fun index record found => (nomatch found), fun undo member => absurd member none,
    fun id row address held key => ⟨fun _ => ?_, fun dirty => absurd dirty (unchanged held),
      fun _ => ?_⟩,
    fun address missing => ?_⟩, fun index record row found => (nomatch found),
    fun undo address member => absurd member none⟩
  · exact congrArg AccountRow.current (accountAt_of_row key held).symm
  · exact Nat.lt_succ_of_le (aged.account id row held).journaled
  · exact congrArg AccountRow.current (accountAt_of_missing missing)

end WorldState

namespace Config

open WorldState

variable {env : Env} {config after : Config} {move : Move}

/-- The accounts as an attempt found them, and whether its finalisations spared the absent ones. -/
structure Audit where
  start : Address → Option Account
  spared : Prop

def nextAudit (env : Env) (config : Config) (audit : Audit) : Move → Audit
  | .beginAttempt _ => ⟨fun address => (config.state.accountAt env address).current, True⟩
  | .call (.finalizeLifecycle rules) => { audit with
      spared := audit.spared ∧
        ∀ address, (config.state.factsAt env address).Spared rules (audit.start address) }
  | _ => audit

structure Audited (env : Env) (config : Config) (audit : Audit) : Prop where
  stacked : Stacked config.state config.scopes
  bygone : Bygone config
  running : audit.spared → Running config.state → WorldState.Audited env audit.start config.state

namespace Audited

theorem init (genesis : Genesis) (audit : Audit) : Audited genesis.env (Config.init genesis) audit where
  stacked := .init genesis
  bygone := .init genesis
  running _ running := nomatch running

theorem call {op : Op} {audit : Audit} {state : WorldState}
    (ends : Nested.EndsIn (op.run env config.state) state)
    (called : Called env op.licence config.state state)
    (audited : audit.spared → WorldState.Audited env audit.start config.state)
    (spared : (config.nextAudit env audit (.call op)).spared) :
    WorldState.Audited env (config.nextAudit env audit (.call op)).start state := by
  have ordinary : op.licence ≠ .finalization → audit.spared →
      WorldState.Audited env audit.start state := by
    intro ordinary spared
    cases called with
    | changed steps => exact (audited spared).changed ordinary steps
    | settled final => exact absurd final ordinary
    | abandoned final => exact absurd final ordinary
  cases op with
  | finalizeLifecycle rules => exact finalizeLifecycle_audited (audited spared.1) spared.2 ends
  | _ => exact ordinary (fun final => nomatch final) spared

/-- Every move keeps the records truthful. -/
theorem step {audit : Audit} (audited : Audited env config audit)
    (stepped : Stepped env config move after) :
    Audited env after (config.nextAudit env audit move) := by
  refine ⟨audited.stacked.step stepped, audited.bygone.step audited.stacked stepped, ?_⟩
  have still := audited.running
  cases stepped with
  | called aside ends called =>
      intro spared now
      have was := called.pushes.active.symm.trans now
      exact call ends called (fun spared => still spared was) spared
  | transient ran write =>
      intro spared now
      cases write with
      | same running =>
          exact still spared running
      | refused running =>
          exact (still spared running).same rfl rfl (fun _ member => member) rfl
      | wrote running =>
          refine (still spared running).same rfl rfl (fun undo member => ?_) rfl
          exact (List.mem_cons.mp member).resolve_left fun same => nomatch same
  | cleared running =>
      exact fun spared _ => (still spared running).same rfl rfl (fun _ member => member) rfl
  | checkpoint running session =>
      exact fun spared _ => (still spared running).same rfl rfl (fun _ member => member) rfl
  | committed stack closes =>
      exact fun spared _ => (still spared closes.running).same rfl rfl (fun _ member => member) rfl
  | reverted stack closes unwound =>
      intro spared _
      have flagged : WorldState.Audited env audit.start config.state.flagged :=
        (still spared closes.running).same rfl rfl (fun _ member => member) rfl
      exact (flagged.unwound unwound).same rfl rfl (fun _ member => member) rfl
  | begun notActive =>
      exact fun _ _ => audited_begun audited.bygone.state (audited.stacked.journal notActive)
  | openSession running flat =>
      exact fun spared _ => (still spared running).same rfl rfl (fun _ member => member) rfl
  | closeSession running flat =>
      exact fun spared _ => (still spared running).same rfl rfl (fun _ member => member) rfl
  | sealed running ran =>
      obtain ⟨-, -, rfl⟩ := sealAttempt_ran (audited.stacked.begun running) ran
      exact fun spared _ => (still spared running).same rfl rfl (fun _ member => member) rfl
  | retained running closed ran => exact fun _ now => nomatch now
  | discarded running closed unwound => exact fun _ now => nomatch now
  | startedOver notActive => exact fun _ now => nomatch notActive.symm.trans now
  | captured notActive requests => exact fun _ now => nomatch notActive.symm.trans now
  | cloned found unresolved requests =>
      exact fun spared now => (still spared now).same rfl rfl (fun _ member => member) rfl
  | refused requests snapshot =>
      rcases snapshot with rfl | ⟨index, rfl⟩
      · exact fun spared now => (still spared now).same rfl rfl (fun _ member => member) rfl
      · exact fun spared now => (still spared now).same rfl rfl (fun _ member => member) rfl
  | restored found epoch unresolved vacated =>
      cases vacated with
      | idle notActive => exact fun _ now => nomatch notActive.symm.trans now
      | discarded running closed unwound => exact fun _ now => nomatch now

end Audited

end Config

end EvmZig.State
