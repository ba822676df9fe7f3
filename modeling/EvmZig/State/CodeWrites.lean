import EvmZig.State.Calls

/-!
# Introducing code

Between entering code into the store and journaling it, the store is ahead of
the journal.  The calls made in between run the same with any store, so they
are run on the state before, and the store is put in afterwards.
-/

set_option autoImplicit false

namespace EvmZig.State

open Lib Zig

namespace WorldState

variable {env : Env} {strict : Prop} {base : Nat} {scope : Generation} {before after self : WorldState}

/-! ## Methods that run the same with any code store -/

def IgnoresCode {α : Type} (body : Method α) : Prop :=
  ∀ code self, body (withCode code self) = (body self).onState (withCode code)

namespace IgnoresCode

variable {α β : Type} {body : Method α} {next : α → Method β}

theorem bind (first : IgnoresCode body) (second : ∀ value, IgnoresCode (next value)) :
    IgnoresCode (body >>= next) := by
  intro code self
  rw [Action.bind_run, Action.bind_run, first code self]
  cases body self with
  | ok value after => exact second value code after
  | fail error after => rfl
  | illegal => rfl

theorem pure (value : α) : IgnoresCode (Pure.pure value : Method α) := fun _ _ => rfl

/-- A method that reads the whole receiver, but not its code. -/
theorem get {next : WorldState → Method β} (second : ∀ state, IgnoresCode (next state))
    (blind : ∀ code state, next (withCode code state) = next state) :
    IgnoresCode (Action.get >>= next) := by
  intro code self
  rw [Action.bind_run, Action.bind_run, Action.get_run, Action.get_run]
  show next (withCode code self) (withCode code self) = _
  rw [blind]
  exact second self code self

theorem assert {condition : WorldState → Prop} [DecidablePred condition]
    (blind : ∀ code self, condition (withCode code self) ↔ condition self) :
    IgnoresCode (Action.assert condition : Method Unit) := by
  intro code self
  unfold Action.assert
  simp only [blind]
  split
  · rfl
  · rfl

theorem modify {update : WorldState → WorldState}
    (blind : ∀ code self, update (withCode code self) = withCode code (update self)) :
    IgnoresCode (Action.modify update : Method Unit) := by
  intro code self
  rw [Action.modify_run, Action.modify_run, blind]
  rfl

theorem when (condition : Prop) [Decidable condition] {body : Method Unit}
    (ignores : IgnoresCode body) : IgnoresCode (Action.when condition body) := by
  unfold Action.when
  split
  · exact ignores
  · exact IgnoresCode.pure ()

theorem accountRow (id : AccountId) : IgnoresCode (accountRow id) := by
  intro code self
  unfold WorldState.accountRow
  simp only [withCode]
  split
  · rfl
  · rfl

theorem reserve_granted (granted : env.grants self.requests = true) :
    reserve env self = .ok () { self with requests := self.requests + 1 } := if_pos granted

theorem reserve_refused (refused : ¬env.grants self.requests = true) :
    reserve env self = .fail .outOfMemory { self with requests := self.requests + 1 } :=
  if_neg refused

theorem reserve : IgnoresCode (reserve env) := by
  intro code self
  by_cases granted : env.grants self.requests = true
  · rw [reserve_granted granted]
    exact reserve_granted granted
  · rw [reserve_refused granted]
    exact reserve_refused granted

theorem accountObservation (id : AccountId) : IgnoresCode (accountObservation id) := by
  unfold WorldState.accountObservation
  refine (IgnoresCode.accountRow id).bind fun row => IgnoresCode.get ?_ ?_
  · intro state
    split
    · exact IgnoresCode.pure _
    · exact fun _ _ => rfl
  · exact fun _ _ => rfl

theorem appendAccountUndo (id : AccountId) : IgnoresCode (appendAccountUndo id) :=
  (IgnoresCode.accountRow id).bind fun _ => (IgnoresCode.accountObservation id).bind fun _ =>
    IgnoresCode.modify fun _ _ => rfl

theorem prepareAccountMutation (id : AccountId) :
    IgnoresCode (prepareAccountMutation env id) := by
  unfold WorldState.prepareAccountMutation
  refine (IgnoresCode.accountRow id).bind fun row => ?_
  refine (IgnoresCode.assert fun _ _ => Iff.rfl).bind fun _ => IgnoresCode.get (fun state => ?_)
    fun _ _ => rfl
  refine (IgnoresCode.when _ (reserve.bind fun _ => reserve)).bind fun _ => ?_
  refine (IgnoresCode.when _ reserve).bind fun _ => (IgnoresCode.when _ reserve).bind fun _ => ?_
  refine (IgnoresCode.when _ (IgnoresCode.appendAccountUndo id)).bind fun _ => ?_
  refine (IgnoresCode.when _ (IgnoresCode.modify fun _ _ => rfl)).bind fun _ => ?_
  exact IgnoresCode.when _ (IgnoresCode.modify fun _ _ => rfl)

/-- Such a method leaves the store alone. -/
theorem ok_code (ignores : IgnoresCode body) {value : α} (ran : body self = .ok value after) :
    after.code = self.code := by
  have same := ignores self.code self
  have kept : withCode self.code self = self := rfl
  rw [kept, ran] at same
  have afterSame : after = withCode self.code after := by
    injection same
  rw [afterSame]
  rfl

theorem fail_code (ignores : IgnoresCode body) {error : StateError}
    (ran : body self = .fail error after) : after.code = self.code := by
  have same := ignores self.code self
  have kept : withCode self.code self = self := rfl
  rw [kept, ran] at same
  have afterSame : after = withCode self.code after := by
    injection same
  rw [afterSame]
  rfl

end IgnoresCode

/-! ## The write of `setCode` -/

/-- A method that returns no error. -/
def NeverFails {α : Type} (body : Method α) : Prop :=
  ∀ self error after, body self ≠ .fail error after

theorem NeverFails.bind {α β : Type} {body : Method α} {next : α → Method β}
    (first : NeverFails body) (second : ∀ value, NeverFails (next value)) :
    NeverFails (body >>= next) := by
  intro self error after
  rw [Action.bind_run]
  cases ran : body self with
  | ok value middle => exact second value middle error after
  | fail found middle => exact absurd ran (first self found middle)
  | illegal => exact fun absurd => nomatch absurd

theorem NeverFails.modify (update : WorldState → WorldState) :
    NeverFails (Action.modify update : Method Unit) :=
  fun _ _ _ absurd => nomatch absurd

theorem Looks.neverFails {α : Type} {body : Method α} (looks : Looks body) : NeverFails body := by
  intro self error after ran
  rcases looks self with ⟨value, found⟩ | found
  · rw [found] at ran
    cases ran
  · rw [found] at ran
    cases ran

theorem assignCode_neverFails (id : AccountId) (cached : CodeStore.CacheResult) :
    NeverFails (assignCode id cached) :=
  (accountRow_looks id).neverFails.bind fun _ => (NeverFails.modify _).bind fun _ =>
    (accountRow_looks id).neverFails.bind fun _ =>
      (accountObservation_looks id).neverFails.bind fun _ => NeverFails.modify _

/-! ## Entering code -/

theorem ExtendsCode.truncate {code stored : CodeStore} (extends_ : ExtendsCode code stored) :
    stored.truncateIntroduced code.introducedLen = code := by
  obtain ⟨hash, bytes, fresh, rfl⟩ := extends_.entry
  have taken : (code.introduced.admitRow hash bytes fresh).truncate code.introduced.count =
      code.introduced := Table.truncate_of_prefixed (List.prefix_append _ _)
  simp only [CodeStore.truncateIntroduced, CodeStore.introducedLen, taken]

theorem withCode_code (self : WorldState) : withCode self.code self = self := rfl

theorem quiet_cells (world : after.world = before.world)
    (deferred : after.deferredWarmth = before.deferredWarmth)
    (transient : after.transientStorage = before.transientStorage)
    (lifetime : after.lifetime = before.lifetime)
    (observedAccounts : after.observedAccounts = before.observedAccounts)
    (observedStorage : after.observedStorage = before.observedStorage) :
    after.view env = before.view env := by
  refine view_congr world deferred transient lifetime (fun _ => ?_) fun _ _ => ?_
  · rw [accountEffect, accountEffect, lifetime, observedAccounts]
  · rw [storageEffect, storageEffect, lifetime, observedStorage]

/-- What `introduceCode` does before the journal catches up with the store. -/
def prepareIntroduction (env : Env) (id : AccountId) : Method Unit := do
  reserve env
  reserve env
  prepareAccountMutation env id

theorem prepareIntroduction_keeps (id : AccountId) :
    Keeps (calls env strict base scope) Running (prepareIntroduction env id)
      fun _ => Prepared id :=
  Keeps.bind (reserve_keeps fun _ _ holds => holds) fun _ =>
    Keeps.bind (reserve_keeps fun _ _ holds => holds) fun _ =>
      calls_of_call (prepareAccountMutation_assigned id)

theorem prepareIntroduction_ignoresCode (id : AccountId) :
    IgnoresCode (prepareIntroduction env id) :=
  IgnoresCode.reserve.bind fun _ => IgnoresCode.reserve.bind fun _ =>
    IgnoresCode.prepareAccountMutation id

theorem introduceCode_split (id : AccountId) (cached : CodeStore.CacheResult) (introduced : Nat) :
    introduceCode env id cached introduced = (do
      prepareIntroduction env id
      Action.modify (listIntroduced introduced)
      assignCode id cached) := by
  simp only [introduceCode, prepareIntroduction, bind_assoc]
  rfl

section Entered

variable {code stored : CodeStore}

/-- The store is put in, listed and journaled at once. -/
theorem listIntroduced_keeps (id : AccountId) (longer : ExtendsCode code stored) :
    Keeps (calls env strict base scope) (fun self => self.code = code ∧ Prepared id self)
      (Action.modify fun self => listIntroduced code.introducedLen (withCode stored self) :
        Method Unit)
      fun _ => Prepared id := by
  apply Keeps.modify
  rintro self inv ⟨rfl, prepared⟩
  generalize afterEq : listIntroduced self.code.introducedLen (withCode stored self) = after
  have cells : after.view env = self.view env := by
    subst afterEq
    exact quiet_cells rfl rfl rfl rfl rfl rfl
  have light : Light env strict self after [.introducedCode] := by
    subst afterEq
    obtain ⟨hash, bytes, fresh, rfl⟩ := longer.entry
    exact {
      grows := Grows.of_world rfl rfl rfl
      journal := rfl
      valid := fun entry member => by
        obtain rfl := List.mem_singleton.mp member
        trivial
      restored := fun cell _ => congrFun cells cell
      account := fun _ => congrFun cells _
      slot := fun _ _ => congrFun cells _
      accountKey := fun _ => rfl
      slotOf := fun _ => rfl
      stamps := RowStamps.of_world rfl (Nat.le_refl _)
      handles := fun held => ⟨held.account, held.storage⟩
      introduced := fun held => by
        have count : (self.code.introduced.admitRow hash bytes fresh).count =
            self.code.introduced.count + 1 := List.length_append
        refine ⟨?_, ?_⟩
        · show self.blockIntroducedCodes ++ [self.code.introducedLen] =
            List.range (self.code.introduced.admitRow hash bytes fresh).count
          rw [count, held.list, List.range_succ]
          rfl
        · show (self.code.introduced.admitRow hash bytes fresh).count =
            self.acceptedLen.blockIntroducedCodes +
              introducedEntries (.introducedCode :: self.journal)
          rw [count, held.count, introducedEntries, introducedEntries, List.countP_cons,
            Nat.add_assoc]
          rfl
      code := List.prefix_append _ _
      parentCode := rfl
      codeCache := rfl
      marks := rfl
      logs := fun _ => LogBuffer.Extends.refl _
      control := rfl }
  have mutation := light.mutation inv prepared.running
  have stepped := mutation.step inv prepared.running
  subst afterEq
  exact ⟨stepped.1, stepped.2, prepared⟩

/-- `setCode` from the moment fresh code is in the store. -/
theorem introduceCode_allows (id : AccountId) (cached : CodeStore.CacheResult)
    (longer : ExtendsCode self.code stored) (inv : Inv env base scope self)
    (running : Running self) :
    (calls env strict base scope).Allows self (fun _ _ => True)
      (Action.errdefer
        (fun after => { after with code := after.code.truncateIntroduced self.code.introducedLen })
        (introduceCode env id cached self.code.introducedLen) (withCode stored self)) := by
  have prepared : (calls env strict base scope).Allows self (fun _ => Prepared id)
      (prepareIntroduction env id self) := prepareIntroduction_keeps id self inv running
  have same : prepareIntroduction env id (withCode stored self) = _ :=
    prepareIntroduction_ignoresCode id stored self
  rw [introduceCode_split, Action.errdefer, Action.bind_run, same]
  cases ran : prepareIntroduction env id self with
  | illegal => trivial
  | fail error after =>
      -- nothing was journaled: truncating the store is all there is to undo
      rw [ran] at prepared
      have kept := (prepareIntroduction_ignoresCode id).fail_code ran
      have restored : withCode (stored.truncateIntroduced self.code.introducedLen) after =
          after := by
        rw [longer.truncate, ← kept, withCode_code]
      rw [← restored] at prepared
      exact prepared
  | ok value after =>
      rw [ran] at prepared
      obtain ⟨held, stepped, condition⟩ := prepared
      have kept := (prepareIntroduction_ignoresCode id).ok_code ran
      have listed : (calls env strict base scope).Allows after (fun _ => Prepared id) _ :=
        listIntroduced_keeps id longer after held ⟨kept, condition⟩
      have rest : (calls env strict base scope).Allows _ (fun _ => Prepared id)
          (assignCode id cached _) :=
        calls_of_call (assignCode_assigned (by trivial) id cached) _ listed.1 listed.2.2
      have quiet := assignCode_neverFails id cached
        (listIntroduced self.code.introducedLen (withCode stored after))
      have joined : (Action.modify (listIntroduced self.code.introducedLen) >>=
          fun _ => assignCode id cached) (withCode stored after) =
          assignCode id cached (listIntroduced self.code.introducedLen (withCode stored after)) :=
        rfl
      dsimp only [Outcome.onState]
      rw [joined]
      cases ending : assignCode id cached
          (listIntroduced self.code.introducedLen (withCode stored after)) with
      | illegal => trivial
      | fail error last => exact absurd ending (quiet error last)
      | ok value last =>
          rw [ending] at rest
          have through := (calls env strict base scope).trans stepped listed.2.1
          exact ⟨rest.1, (calls env strict base scope).trans through rest.2.1, trivial⟩

end Entered

/-- The last step of `setCode` on fresh code, from the limit check on. -/
theorem enterIntroduced_keeps (id : AccountId) (hash : CodeHash) (bytes : Bytes)
    (introducedLen : Nat) :
    Keeps (calls env strict base scope)
      (fun self => introducedLen = self.code.introducedLen ∧ Running self)
      (do
        let cached ← enterIntroduced env hash bytes
        match cached.newlyIntroduced with
        | none => Action.illegal
        | some introduced =>
            Action.errdefer
              (fun self => { self with code := self.code.truncateIntroduced introducedLen })
              (introduceCode env id cached introduced) : Method Unit)
      fun _ _ => True := by
  rw [enterIntroduced, bind_assoc]
  refine Keeps.bind Keeps.get fun state => ?_
  split
  · exact Keeps.fail _
  · refine Keeps.imp ?_ (fun _ holds => holds.2) fun _ _ holds => holds
    rw [bind_assoc]
    refine Keeps.bind (reserve_keeps fun _ _ holds => holds) fun _ => ?_
    rw [bind_assoc]
    refine Keeps.bind (reserve_keeps fun _ _ holds => holds) fun _ => ?_
    rintro self inv ⟨rfl, running⟩
    rw [Action.bind_run]
    rcases admitCode_cases hash bytes self with stuck | ⟨cached, stored, longer, entered, ran⟩
    · rw [stuck]
      trivial
    · rw [ran]
      dsimp only
      rw [entered]
      exact introduceCode_allows id cached longer inv running

theorem setCode_safe (address : Address) (bytes : Bytes) :
    Safe (calls env strict base scope) (setCode env address bytes) := by
  unfold setCode
  refine Safe.bind (calls_of_call (requireAccount_assigned address)).safe fun id =>
    Keeps.bind (calls_of_call (observeAccount_assigned id _)) fun _ =>
    Keeps.bind (Keeps.read _) fun introducedLen =>
    Keeps.bind (resolveCode_keeps bytes) fun resolved => ?_
  split
  · exact (calls_of_call (Keeps.bind (prepareAccountMutation_assigned id) fun _ =>
      Keeps.forget (assignCode_assigned (by trivial) id _))).imp (fun _ holds => holds.2)
        fun _ _ _ => trivial
  · exact enterIntroduced_keeps id _ bytes introducedLen

end WorldState

end EvmZig.State
