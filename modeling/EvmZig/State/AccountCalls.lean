import EvmZig.State.AccountWrites

/-!
# Writing accounts, wiping storage, lifecycle marks

Each of these calls prepares its row and then assigns to it.
-/

set_option autoImplicit false

namespace EvmZig.State

open Lib Zig

namespace WorldState

variable {env : Env} {strict : Prop} {base : Nat} {scope : Generation} {before after self : WorldState}

theorem Prepared.running {id : AccountId} (prepared : Prepared id self) : Running self := by
  obtain ⟨row, held, mode, ready⟩ := prepared
  exact mode

/-! ## Wiping the storage of an account -/

/-- The row after `wipeStorage`. -/
def wipedRow (row : AccountRow) (incarnation : Incarnation) (transaction : Generation) :
    AccountRow :=
  { row with
    flags := { row.flags with storageDirty := true, storageWiped := true }
    storageIncarnation := incarnation
    wipedTransaction := transaction }

theorem markStorageWiped_keeps (id : AccountId) (row : AccountRow) (lifetime : Lifetimes)
    (ready : Ready row lifetime) (incarnation : Incarnation) {block transaction : Bool}
    (blockFirst : block = true ↔ row.flags.storageWiped = false)
    (transactionFirst : transaction = true ↔ row.wipedTransaction ≠ lifetime.transaction) :
    Keeps (calls env strict base scope) (Holds id row lifetime)
      (Action.modify (markStorageWiped id block transaction incarnation) : Method Unit)
      fun _ => Prepared id := by
  apply Keeps.modify
  rintro self inv ⟨held, mode, rfl⟩
  have active := inv.active mode
  obtain ⟨address, key⟩ := Table.key_eq_some_of_row held
  have consistent := inv.consistent.account address
  simp only [view, accountAt_of_row key held] at consistent
  generalize afterEq : markStorageWiped id block transaction incarnation self = after
  have shape : after = { self with
      world := { self.world with
        accounts := self.world.accounts.set id
          (wipedRow row incarnation self.lifetime.transaction) }
      blockStorageWipes :=
        if block then self.blockStorageWipes ++ [id] else self.blockStorageWipes
      transactionStorageWipes :=
        if transaction then self.transactionStorageWipes ++ [id]
        else self.transactionStorageWipes } := by
    rw [← afterEq, markStorageWiped, updateAccount_of_row held]
    rfl
  have set : AccountSet self after id row
      (wipedRow row incarnation self.lifetime.transaction) := by
    subst shape
    exact ⟨held, rfl, rfl, rfl, rfl, rfl⟩
  have control : SameControl self after := by
    subst shape
    exact rfl
  have step : AccountStep env self after id address row
      (wipedRow row incarnation self.lifetime.transaction) := {
    set := set
    key := key
    handle := rfl
    warm := rfl
    owners := by
      subst shape
      rfl
    others := fun _ _ found _ => by
      subst shape
      exact found
    observedStorage := by
      subst shape
      rfl
    clock := control.clock
    consistent := {
      unchanged := consistent.unchanged
      unwiped := fun unwiped => absurd unwiped.symm Bool.false_ne_true
      scope := consistent.scope
      wiped := active.transactionPast
      dirty := consistent.dirty }
    settled := fun _ => rfl
    wiped := .inr rfl
    epoch := .inr rfl }
  have lists : Lists env after := by
    obtain ⟨changes, wipes, dirty, transactionWipes⟩ := active.lists
    refine ⟨?_, ?_, ?_, ?_⟩
    · rw [control.acceptedLen, control.reverted]
      subst shape
      exact changes.congr fun other => by rw [step.mark_eq active _ rfl]
    · rw [control.acceptedLen, control.reverted]
      subst shape
      refine wipes.list_when ?_ fun other => step.mark_gained active _ rfl other
      rw [step.mark_held, blockFirst]
      show row.flags.storageWiped = false ↔ ¬row.flags.storageWiped = true
      exact Bool.eq_false_iff
    · rw [control.acceptedLen, control.reverted]
      subst shape
      exact dirty.congr fun other => by rw [step.slotMark active]
    · rw [control.lifetime, control.reverted]
      subst shape
      refine transactionWipes.list_when ?_ fun other =>
        step.mark_gained active _ (decide_eq_true rfl) other
      rw [step.mark_held, transactionFirst]
      exact (not_congr decide_eq_true_iff).symm
  have mutation : Mutation env strict base self after [] := by
    apply step.covered inv mode ready.journaled rfl lists
    · subst shape
      exact { ListsGrow.refl self with
        blockStorageWipes := prefix_when _ _ _
        transactionStorageWipes := prefix_when _ _ _ }
    · subst shape
      exact ⟨active.introduced.list, active.introduced.count⟩
    · exact control
    · subst shape
      rfl
    · subst shape
      rfl
  have stepped := mutation.step inv mode
  refine ⟨stepped.1, stepped.2, _, set.row_same, ?_, ?_⟩
  · rw [control.transactionActive]
    exact mode
  · rw [control.lifetime]
    exact ⟨ready.observed, ready.journaled, ready.blockChanged, ready.dirty⟩

/-! ## Lifecycle -/

theorem quiet_lifecycleAccounts (self : WorldState) (running : Running self)
    (lifecycleAccounts : List AccountId) : Quiet env self { self with lifecycleAccounts } where
  grows := Grows.of_world rfl rfl rfl
  view := view_congr rfl rfl rfl rfl (fun _ => rfl) fun _ _ => rfl
  handles _ held := ⟨held.account, held.storage⟩
  stamps := RowStamps.of_world rfl (Nat.le_refl _)
  codeCache := List.prefix_refl _
  lifecycle idle := by
    rw [Running, idle] at running
    cases running
  rest := rfl

end WorldState

end EvmZig.State
