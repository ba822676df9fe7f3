import EvmZig.State.Assignments

/-!
# Calls as sequences of assignments

One lemma for each function a call is made of; `Op.run_assigned` puts them
together.  Lifecycle finalisation works under a checkpoint of its own, so it is
described by what happens between that checkpoint and its end.
-/

set_option autoImplicit false

namespace EvmZig.State

open Lib Zig

namespace WorldState

variable {env : Env} {licence : Licence} {self after : WorldState} {α : Type}
  {pre : WorldState → Prop} {discipline : Discipline WorldState} {update : AccountRow → AccountRow}
  {post : α → WorldState → Prop} {body : Method α} {id : AccountId} {address : Address}
  {resolved : ResolvedStorage} {row : AccountRow} {lifetime : Lifetimes}

/-! ## Lookups, under any discipline -/

theorem assertSession_running : Keeps discipline pre assertSession
    fun _ after => Running after ∧ pre after :=
  Keeps.bind (Keeps.assert _) fun _ => (Keeps.assert _).weaken
    fun _ _ holds => holds.2

theorem assertMutable_running : Keeps discipline pre assertMutable
    fun _ after => Running after ∧ pre after :=
  Keeps.bind (Keeps.assert _) fun _ => Keeps.bind (Keeps.assert _) fun _ =>
    (Keeps.assert _).weaken fun _ _ holds => ⟨holds.2.2.1, holds.2.2.2⟩

/-! ## Single assignments -/

theorem assign {update : WorldState → WorldState} {post : Unit → WorldState → Prop}
    (step : ∀ self, pre self → Assignment env licence self (update self) ∧ post () (update self)) :
    Keeps (assignments env licence) pre (Action.modify update : Method Unit) post :=
  Keeps.modify fun self _ condition => ⟨trivial, .single (step self condition).1,
    (step self condition).2⟩

theorem assign_safe {update : WorldState → WorldState}
    (step : ∀ self, Assignment env licence self (update self)) :
    Safe (assignments env licence) (Action.modify update : Method Unit) :=
  assign fun self _ => ⟨step self, trivial⟩

theorem request_assigned (error : StateError) (ignores : IgnoresRequests pre) :
    Keeps (assignments env licence) pre (request env error) fun _ => pre := by
  intro self _ condition
  have asked : Assignment env licence self _ := .asked self (self.requests + 1)
  unfold request
  dsimp only
  split
  · exact ⟨trivial, .single asked, ignores self _ condition⟩
  · exact ⟨trivial, .single asked⟩

theorem reserve_assigned (ignores : IgnoresRequests pre) :
    Keeps (assignments env licence) pre (reserve env) fun _ => pre :=
  request_assigned _ ignores

theorem when_reserve_assigned (condition : Prop) [Decidable condition] (ignores : IgnoresRequests pre) :
    Keeps (assignments env licence) pre (Action.when condition (reserve env)) fun _ => pre :=
  Keeps.when condition (fun _ => reserve_assigned ignores) fun _ _ holds => holds

theorem changes_of_assignments (kept : Keeps (assignments env licence) pre body post) :
    Keeps (changes env licence) pre body post :=
  kept.relate (fun _ _ => trivial) fun _ _ _ _ steps => ⟨trivial, Assigned.changed steps⟩

/-! ## What assignments carry along -/

theorem keeps_key (kept : Keeps (assignments env licence) pre body post) :
    Keeps (assignments env licence) (fun self => self.world.accounts.key id = some address ∧
      pre self) body
      fun value after => after.world.accounts.key id = some address ∧ post value after :=
  kept.carry fun _ _ steps key => Assigned.accountKey steps key

theorem key_of_safe (safe : Safe (assignments env licence) body) :
    Keeps (assignments env licence) (fun self => self.world.accounts.key id = some address) body
      fun _ after => after.world.accounts.key id = some address :=
  (keeps_key safe).imp (fun _ key => ⟨key, trivial⟩) fun _ _ holds => holds.1

theorem keeps_run (kept : Keeps (assignments env licence) pre body post) :
    Keeps (assignments env licence) (fun self => Running self ∧ pre self) body
      fun value after => Running after ∧ post value after :=
  kept.carry fun _ _ steps running => (Assigned.control steps).transactionActive.trans running

theorem running_of_safe (safe : Safe (assignments env licence) body) :
    Keeps (assignments env licence) Running body fun _ => Running :=
  (keeps_run safe).imp (fun _ running => ⟨running, trivial⟩) fun _ _ holds => holds.1

theorem keeps_slot {resolved : ResolvedStorage} {body : Method α} {post : α → WorldState → Prop}
    (kept : Keeps (assignments env licence) pre body post) :
    Keeps (assignments env licence) (fun self => Owned resolved self ∧ pre self) body
      fun value after => Owned resolved after ∧ post value after := by
  apply kept.carry
  rintro before after steps ⟨slot, key⟩
  exact ⟨slot, Assigned.storageKey steps key⟩

theorem slot_of_safe (safe : Safe (assignments env licence) body) :
    Keeps (assignments env licence) (Owned resolved) body fun _ => Owned resolved :=
  (keeps_slot safe).imp (fun _ owned => ⟨owned, trivial⟩) fun _ _ holds => holds.1

/-! ## Admission -/

theorem insertAccount_assigned (address : Address) (grows : env.growsOnTouch = true) :
    Keeps (assignments env licence) (fun _ => True) (insertAccount address (env.parentAccount address))
      fun id after => after.world.accounts.key id = some address := by
  intro self _ _
  unfold insertAccount
  split
  · trivial
  · rename_i fresh
    exact ⟨trivial, .single (.admittedAccount address fresh grows), Table.key_admit_last _ _ _ fresh⟩

theorem admitAccount_assigned (address : Address) (grows : env.growsOnTouch = true) :
    Keeps (assignments env licence) (fun _ => True) (admitAccount env address)
      fun id after => after.world.accounts.key id = some address := by
  have insert := @insertAccount_assigned env licence address grows
  have asks : ∀ error, Safe (assignments env licence) (request env error) :=
    fun error => request_assigned error fun _ _ holds => holds
  unfold admitAccount
  split
  · rename_i reader retains parent
    rw [Env.parentAccount, parent] at insert
    exact Keeps.bind (asks _) fun _ => Keeps.bind (asks _) fun _ => insert
  · rename_i noReader
    have absent : env.parentAccount address = none := by
      cases parent : env.parent with
      | closedWorld accounts storage =>
          rw [Env.growsOnTouch, parent] at grows
          cases grows
      | openWorld reader retains =>
          cases reader with
          | some reader => exact absurd parent (noReader reader retains)
          | none =>
              rw [Env.parentAccount, parent]
              rfl
    rw [absent] at insert
    exact Keeps.bind (asks _) fun _ => insert

theorem resolveAccount_assigned (address : Address) (policy : ResolutionPolicy) :
    Keeps (assignments env licence) (fun _ => True) (resolveAccount env address policy)
      fun found after => ∀ id, found = some id → after.world.accounts.key id = some address := by
  unfold resolveAccount
  refine Keeps.bind Keeps.get fun state => ?_
  split
  · rename_i id found
    refine Keeps.returns ?_
    rintro _ after ⟨rfl, rfl, -⟩ other otherEq
    cases otherEq
    exact Table.find_eq_some.mp found
  · split
    · refine Keeps.returns ?_
      rintro _ after ⟨rfl, -⟩ other otherEq
      cases otherEq
    · split
      · rename_i grows
        rw [← bind_pure_comp]
        refine Keeps.bind ((admitAccount_assigned address grows).imp (fun _ _ => trivial)
          fun _ _ key => key) fun id => ?_
        refine Keeps.returns ?_
        rintro _ after ⟨rfl, key⟩ other otherEq
        cases otherEq
        exact key
      · exact Keeps.fail _

theorem requireAccount_assigned (address : Address) :
    Keeps (assignments env licence) (fun _ => True) (requireAccount env address)
      fun id after => after.world.accounts.key id = some address := by
  unfold requireAccount
  refine Keeps.bind (resolveAccount_assigned address _) fun found => ?_
  split
  · refine Keeps.returns ?_
    rintro _ after ⟨rfl, key⟩
    exact key _ rfl
  · exact Keeps.illegal

theorem insertStorage_assigned (key : StorageKey) (address : Address)
    (grows : env.growsOnTouch = true) :
    Keeps (assignments env licence) (fun self => self.world.accounts.key key.account = some address)
      (insertStorage key (env.parentStorage address key.slot))
      fun id after => after.world.storage.key id = some key := by
  intro self _ owner
  unfold insertStorage
  split
  · trivial
  · rename_i fresh
    exact ⟨trivial, .single (.admittedSlot owner fresh grows), Table.key_admit_last _ _ _ fresh⟩

theorem admitStorage_assigned (key : StorageKey) (address : Address) (grows : env.growsOnTouch = true) :
    Keeps (assignments env licence) (fun self => self.world.accounts.key key.account = some address)
      (admitStorage env key) fun id after => after.world.storage.key id = some key := by
  have insert := @insertStorage_assigned env licence key address grows
  have asks : ∀ error, Keeps (assignments env licence)
      (fun self => self.world.accounts.key key.account = some address) (request env error)
      fun _ self => self.world.accounts.key key.account = some address :=
    fun error => request_assigned error fun _ _ owner => owner
  unfold admitStorage
  split
  · rename_i reader retains parent
    rw [Env.parentStorage, parent] at insert
    refine Keeps.bind (accountAddress_reads key.account) fun held => ?_
    rintro self invariant ⟨heldKey, owner⟩
    rw [owner] at heldKey
    cases heldKey
    exact Keeps.bind (asks _) (fun _ => Keeps.bind (asks _) fun _ => insert) self invariant owner
  · rename_i noReader
    have absent : env.parentStorage address key.slot = 0 := by
      cases parent : env.parent with
      | closedWorld accounts storage =>
          rw [Env.growsOnTouch, parent] at grows
          cases grows
      | openWorld reader retains =>
          cases reader with
          | some reader => exact absurd parent (noReader reader retains)
          | none => rw [Env.parentStorage, parent]
    rw [absent] at insert
    exact Keeps.bind (asks _) fun _ => insert

/-- A slot found or admitted is the one asked for. -/
theorem resolveStorage_assigned (account : AccountId) (slot : U256) (address : Address)
    (policy : ResolutionPolicy) :
    Keeps (assignments env licence) (fun self => self.world.accounts.key account = some address)
      (resolveStorage env account slot policy)
      fun found after => ∀ id, found = some id →
        after.world.storage.key id = some ⟨account, slot⟩ := by
  unfold resolveStorage
  refine Keeps.bind Keeps.get fun state => ?_
  split
  · rename_i id found
    refine Keeps.returns ?_
    rintro _ after ⟨rfl, rfl, -⟩ other otherEq
    cases otherEq
    exact Table.find_eq_some.mp found
  · split
    · refine Keeps.returns ?_
      rintro _ after ⟨rfl, -⟩ other otherEq
      cases otherEq
    · split
      · rename_i grows
        rw [← bind_pure_comp]
        refine Keeps.bind ((admitStorage_assigned ⟨account, slot⟩ address grows).imp
          (fun _ holds => holds.2) fun _ _ key => key) fun id => ?_
        refine Keeps.returns ?_
        rintro _ after ⟨rfl, key⟩ other otherEq
        cases otherEq
        exact key
      · exact Keeps.fail _

/-- The account and the slot behind a resolved storage key. -/
def Resolves (resolved : ResolvedStorage) (address : Address) (slot : U256) (self : WorldState) :
    Prop :=
  self.world.accounts.key resolved.account = some address ∧
    self.world.storage.key resolved.storage = some ⟨resolved.account, slot⟩

theorem Resolves.owned {slot : U256} (resolves : Resolves resolved address slot self) :
    Owned resolved self :=
  ⟨slot, resolves.2⟩

theorem requireStorage_assigned (address : Address) (slot : U256) :
    Keeps (assignments env licence) (fun _ => True) (requireStorage env address slot)
      fun resolved => Resolves resolved address slot := by
  unfold requireStorage
  refine Keeps.bind (requireAccount_assigned address) fun account => ?_
  refine Keeps.bind ((keeps_key (resolveStorage_assigned account slot address _)).imp
    (fun _ key => ⟨key, key⟩) fun _ _ holds => holds) fun found => ?_
  split
  · refine Keeps.returns ?_
    rintro _ after ⟨rfl, key, slotKey⟩
    exact ⟨key, slotKey _ rfl⟩
  · exact Keeps.illegal

/-! ## Code -/

theorem cacheCode_assigned (codeHash : CodeHash) (bytes : Bytes) :
    Safe (assignments env licence) (cacheCode env codeHash bytes) := by
  unfold cacheCode
  refine Safe.bind (Safe.assert _) fun _ => ?_
  split
  · exact Safe.pure _
  · refine Safe.bind Safe.get fun state => ?_
    split
    · exact Safe.pure _
    · exact Safe.bind (reserve_assigned fun _ _ holds => holds) fun _ =>
        Safe.bind (assign_safe fun _ => .cachedCode _ _ _) fun _ => Safe.pure _

theorem loadCode_assigned (codeHash : CodeHash) :
    Safe (assignments env licence) (loadCode env codeHash) := by
  unfold loadCode
  split
  · exact Safe.fail _
  · split
    · exact Safe.pure _
    · refine Safe.bind Safe.get fun state => ?_
      split
      · exact Safe.pure _
      · split
        · exact Safe.fail _
        · refine Safe.bind (request_assigned _ fun _ _ holds => holds) fun _ => ?_
          dsimp only
          split
          · exact Safe.fail _
          · exact Safe.bind (cacheCode_assigned codeHash _) fun _ => Safe.pure _

theorem findCode_assigned (codeHash : CodeHash) :
    Safe (assignments env licence) (findCode env codeHash) := by
  unfold findCode
  refine Safe.bind Safe.get fun state => ?_
  split
  · exact Safe.pure _
  · refine Safe.bind (Safe.liftOption _) fun found => ?_
    split
    · exact Safe.pure _
    · exact loadCode_assigned codeHash

theorem bindCode_assigned (id : AccountId) : Safe (assignments env licence) (bindCode env id) := by
  unfold bindCode
  refine Safe.bind (accountRow_looks id).safe fun row => Safe.bind Safe.get fun state => ?_
  dsimp only
  split
  · refine Safe.bind (assign_safe fun _ => .boundCode _ _ _) fun _ =>
      Safe.bind (Safe.liftOption _) fun found => ?_
    split
    · exact Safe.pure _
    · exact Safe.illegal
  · exact Safe.bind (findCode_assigned _) fun _ => Safe.bind (Safe.assert _) fun _ => Safe.pure _

theorem worldParentCode_looks (bytes : Bytes) : Looks (worldParentCode env bytes) := by
  unfold worldParentCode
  split
  · exact Looks.pure _
  · split
    · exact Looks.pure _
    · refine Looks.get.bind fun state => ?_
      split
      · exact Looks.pure _
      · exact (Looks.assert _).bind fun _ => Looks.pure _

theorem resolveCode_keeps (bytes : Bytes) :
    Keeps discipline pre (resolveCode env bytes) fun _ => pre := by
  unfold resolveCode
  refine Keeps.bind (worldParentCode_looks bytes).kept fun found => ?_
  split
  · exact Keeps.returns fun _ _ holds => holds.2
  · refine Keeps.bind Keeps.get fun state => Keeps.bind (Keeps.liftOption _) fun ahead => ?_
    split
    · exact Keeps.returns fun _ _ holds => holds.2.2.2
    · exact Keeps.fail _
    · exact Keeps.returns fun _ _ holds => holds.2.2.2

theorem enterIntroduced_assigned (introduces : licence.Introduces) (hash : CodeHash) (bytes : Bytes) :
    Safe (assignments env licence) (enterIntroduced env hash bytes) := by
  have admitted : Safe (assignments env licence) (admitCode hash bytes) := by
    intro self _ _
    rcases admitCode_cases hash bytes self with stuck | ⟨cached, code, -, -, ran⟩
    · rw [stuck]
      trivial
    · rw [ran]
      exact ⟨trivial, .single (.stored self code introduces), trivial⟩
  unfold enterIntroduced
  refine Safe.bind Safe.get fun state => ?_
  split
  · exact Safe.fail _
  · exact Safe.bind (reserve_assigned fun _ _ holds => holds) fun _ =>
      Safe.bind (reserve_assigned fun _ _ holds => holds) fun _ => admitted

/-! ## Observations -/

theorem observeAccount_assigned (id : AccountId) (observation : AccountObservation) :
    Keeps (assignments env licence) (fun _ => True) (observeAccount env id observation)
      fun _ => Running := by
  unfold observeAccount
  refine Keeps.bind assertMutable_running fun _ => ?_
  refine Keeps.bind (accountRow_reads id) fun row => Keeps.bind Keeps.get fun state => ?_
  split
  · refine Keeps.bind (accountObservation_looks id).kept fun _ => ?_
    exact assign fun self known => ⟨.mergedAccount _ _ _, known.2.2.1⟩
  · rename_i first
    have fresh : ∀ self, state = self ∧ self.world.accounts.row id = some row ∧ Running self ∧ True →
        row.observation.transaction ≠ self.lifetime.transaction ∧
          self.world.accounts.row id = some row ∧ Running self := by
      rintro self ⟨rfl, held, running, -⟩
      exact ⟨first, held, running⟩
    refine Keeps.imp ?_ fresh fun _ _ holds => holds
    refine Keeps.bind (reserve_assigned fun _ _ holds => holds) fun _ => assign ?_
    rintro self ⟨first, held, running⟩
    exact ⟨.observedAccount held running first observation, running⟩

theorem observeAccount_safe_assigned (id : AccountId) (observation : AccountObservation) :
    Safe (assignments env licence) (observeAccount env id observation) :=
  (observeAccount_assigned id observation).safe

theorem observeStorage_assigned (resolved : ResolvedStorage) (observation : StorageObservation) :
    Keeps (assignments env licence) (fun _ => True) (observeStorage env resolved observation)
      fun _ => Running := by
  unfold observeStorage
  refine Keeps.bind assertMutable_running fun _ => ?_
  refine Keeps.bind (storageRow_reads resolved.storage) fun row => Keeps.bind Keeps.get fun state => ?_
  split
  · refine Keeps.bind (storageObservation_looks resolved.storage).kept fun _ => ?_
    exact assign fun self known => ⟨.mergedSlot _ _ _, known.2.2.1⟩
  · rename_i first
    have fresh : ∀ self, state = self ∧ self.world.storage.row resolved.storage = some row ∧
        Running self ∧ True →
        row.observation.transaction ≠ self.lifetime.transaction ∧
          self.world.storage.row resolved.storage = some row ∧ Running self := by
      rintro self ⟨rfl, held, running, -⟩
      exact ⟨first, held, running⟩
    refine Keeps.imp ?_ fresh fun _ _ holds => holds
    refine Keeps.bind (reserve_assigned fun _ _ holds => holds) fun _ => ?_
    rintro self _ ⟨first, held, running⟩
    rw [Action.bind_run]
    rcases acceptedStorageValue_looks resolved.storage self with ⟨original, accepted⟩ | stuck
    · rw [accepted]
      exact ⟨trivial, .single (.observedSlot held running first accepted observation), running⟩
    · rw [stuck]
      trivial

theorem readAccount_assigned (address : Address) (observation : AccountObservation) :
    Safe (assignments env licence) (readAccount env address observation) :=
  Safe.bind (requireAccount_assigned address).safe fun id => Safe.bind isAttemptOpen_looks.safe fun _ =>
    Safe.bind (Safe.when (observeAccount_safe_assigned id observation)) fun _ =>
    Safe.bind (accountRow_looks id).safe fun _ => Safe.pure _

theorem getCodeView_assigned (address : Address) :
    Safe (assignments env licence) (getCodeView env address) := by
  unfold getCodeView
  refine Safe.bind (requireAccount_assigned address).safe fun id =>
    Safe.bind isAttemptOpen_looks.safe fun _ =>
    Safe.bind (Safe.when (observeAccount_safe_assigned id _)) fun _ =>
    Safe.bind (accountRow_looks id).safe fun row => Safe.bind Safe.get fun state =>
    Safe.bind (Safe.liftOption _) fun found => ?_
  split
  · exact Safe.pure _
  · exact bindCode_assigned id

theorem getBalance_assigned (address : Address) :
    Safe (assignments env licence) (getBalance env address) :=
  Safe.bind (readAccount_assigned address _) fun _ => Safe.pure _

/-! ## Preparing an account row -/

theorem Holds.key_row {other : AccountRow} (holds : Holds id row lifetime self)
    (held : self.world.accounts.row id = some other) : other = row :=
  Option.some.inj (held.symm.trans holds.1)

theorem updateAccount_holds (holds : Holds id row lifetime self) (update : AccountRow → AccountRow) :
    Holds id (update row) lifetime (self.updateAccount id update) := by
  refine ⟨?_, holds.2.1, holds.2.2⟩
  obtain ⟨address, key⟩ := Table.key_eq_some_of_row holds.1
  rw [accounts_updateAccount holds.1, Table.row_set_same key]

theorem appendAccountUndo_assigned (id : AccountId) (row : AccountRow) (lifetime : Lifetimes)
    (current : row.observation.transaction = lifetime.transaction)
    (needed : row.journaledScope ≠ lifetime.scope) :
    Keeps (assignments env licence) (Holds id row lifetime) (appendAccountUndo id)
      fun _ => Holds id { row with journaledScope := lifetime.scope } lifetime := by
  unfold appendAccountUndo
  refine Keeps.bind (accountRow_reads id) fun read => Keeps.bind (accountObservation_reads id)
    fun observed => assign ?_
  rintro self ⟨⟨found, foundHeld, record⟩, readHeld, holds⟩
  have same := holds.key_row readHeld
  have foundSame := holds.key_row foundHeld
  subst same foundSame
  obtain ⟨held, running, rfl⟩ := holds
  exact ⟨.journaled held running current record needed,
    updateAccount_holds ⟨held, running, rfl⟩ _⟩

theorem markBlockChanged_assigned (id : AccountId) (row : AccountRow) (lifetime : Lifetimes)
    (journaled : row.journaledScope = lifetime.scope) (first : row.flags.blockChanged = false) :
    Keeps (assignments env licence) (Holds id row lifetime)
      (Action.modify (markBlockChanged id) : Method Unit)
      fun _ => Holds id { row with flags := { row.flags with blockChanged := true } } lifetime := by
  refine assign ?_
  rintro self ⟨held, running, rfl⟩
  exact ⟨.blockChanged held running journaled first, updateAccount_holds ⟨held, running, rfl⟩ _⟩

theorem markTransactionDirty_assigned (id : AccountId) (row : AccountRow) (lifetime : Lifetimes)
    (current : row.observation.transaction = lifetime.transaction)
    (journaled : row.journaledScope = lifetime.scope) (changed : row.flags.blockChanged = true)
    (first : row.dirtyTransaction ≠ lifetime.transaction) :
    Keeps (assignments env licence) (Holds id row lifetime)
      (Action.modify (markTransactionDirty id) : Method Unit)
      fun _ => Holds id { row with dirtyTransaction := lifetime.transaction } lifetime := by
  refine assign ?_
  rintro self ⟨held, running, rfl⟩
  exact ⟨.transactionDirty held running current journaled changed first,
    updateAccount_holds ⟨held, running, rfl⟩ _⟩

theorem prepareAccountMutation_holds (id : AccountId) (row : AccountRow) (lifetime : Lifetimes) :
    Keeps (assignments env licence) (Holds id row lifetime) (prepareAccountMutation env id)
      fun _ after => Holds id (preparedRow row lifetime) lifetime after ∧
        Ready (preparedRow row lifetime) lifetime := by
  unfold prepareAccountMutation
  refine Keeps.bind (accountRow_reads id) fun read => ?_
  refine Keeps.bind (Keeps.assert _) fun _ => ?_
  refine Keeps.bind Keeps.get fun state => ?_
  intro self invariant condition
  obtain ⟨rfl, observed, readHeld, holds⟩ := condition
  have same := holds.key_row readHeld
  subst same
  obtain ⟨held, running, rfl⟩ := holds
  have ignores := Holds.ignoresRequests id read state.lifetime
  have room : Keeps (assignments env licence) (Holds id read state.lifetime)
      (Action.when (read.journaledScope ≠ state.lifetime.scope) (do reserve env; reserve env))
      fun _ => Holds id read state.lifetime :=
    Keeps.when _ (fun _ => Keeps.bind (reserve_assigned ignores) fun _ => reserve_assigned ignores)
      fun _ _ holds => holds
  have undo : Keeps (assignments env licence) (Holds id read state.lifetime)
      (Action.when (read.journaledScope ≠ state.lifetime.scope) (appendAccountUndo id))
      fun _ => Holds id { read with journaledScope := state.lifetime.scope } state.lifetime := by
    refine Keeps.when _ (fun needed => appendAccountUndo_assigned id read _ observed needed) ?_
    intro journaled after holds
    rw [← not_not.mp journaled]
    exact holds
  have list : Keeps (assignments env licence)
      (Holds id { read with journaledScope := state.lifetime.scope } state.lifetime)
      (Action.when (read.flags.blockChanged = false)
        (Action.modify (markBlockChanged id) : Method Unit))
      fun _ => Holds id { read with
        journaledScope := state.lifetime.scope
        flags := { read.flags with blockChanged := true } } state.lifetime := by
    refine Keeps.when _ (fun first => markBlockChanged_assigned id _ _ rfl first) ?_
    intro changed after holds
    have already : read.flags.blockChanged = true := Bool.eq_true_of_not_eq_false changed
    rw [← already]
    exact holds
  have dirty : Keeps (assignments env licence)
      (Holds id { read with
        journaledScope := state.lifetime.scope
        flags := { read.flags with blockChanged := true } } state.lifetime)
      (Action.when (read.dirtyTransaction ≠ state.lifetime.transaction)
        (Action.modify (markTransactionDirty id) : Method Unit))
      fun _ => Holds id (preparedRow read state.lifetime) state.lifetime := by
    refine Keeps.when _ (fun first => markTransactionDirty_assigned id _ _ observed rfl rfl first) ?_
    intro listed after holds
    rw [preparedRow, ← not_not.mp listed]
    exact holds
  have stages := Keeps.bind room fun _ => Keeps.bind (when_reserve_assigned
    (read.flags.blockChanged = false) ignores) fun _ => Keeps.bind (when_reserve_assigned
    (read.dirtyTransaction ≠ state.lifetime.transaction) ignores) fun _ => Keeps.bind undo fun _ =>
    Keeps.bind list fun _ => dirty.weaken fun _ _ holds =>
      And.intro holds (⟨observed, rfl, rfl, rfl⟩ : Ready (preparedRow read state.lifetime) _)
  exact stages state invariant ⟨held, running, rfl⟩

/-- A condition that starts from the row behind an id. -/
theorem from_row {id : AccountId} {body : Method α} {post : α → WorldState → Prop}
    (stuck : ∀ self, self.world.accounts.row id = none → body self = .illegal)
    (kept : ∀ row lifetime, Keeps (assignments env licence) (Holds id row lifetime) body post) :
    Keeps (assignments env licence) Running body post := by
  intro self invariant running
  cases held : self.world.accounts.row id with
  | none =>
      rw [stuck self held]
      trivial
  | some row => exact kept row self.lifetime self invariant ⟨held, running, rfl⟩

theorem prepareAccountMutation_assigned (id : AccountId) :
    Keeps (assignments env licence) Running (prepareAccountMutation env id) fun _ => Prepared id := by
  refine @from_row env licence Unit id _ _ ?_ fun row lifetime => ?_
  · intro self missing
    rw [prepareAccountMutation, Action.bind_run, accountRow_run_none missing]
  · refine (prepareAccountMutation_holds id row lifetime).weaken ?_
    rintro _ after ⟨holds, ready⟩
    exact holds.prepared ready

/-! ## Assigning to a prepared row -/

theorem Prepared.assignable (prepared : Prepared id self)
    (held : self.world.accounts.row id = some row) : Assignable self id row := by
  obtain ⟨other, otherHeld, running, ready⟩ := prepared
  obtain rfl := Option.some.inj (held.symm.trans otherHeld)
  exact ⟨held, running, ready⟩

theorem Assignable.prepared (assignable : Assignable self id row) : Prepared id self :=
  ⟨row, assignable.held, assignable.running, assignable.ready⟩

theorem AssignsValues.ready (assigns : AssignsValues update) (ready : Ready row lifetime) :
    Ready (update row) lifetime where
  observed := (congrArg _ (assigns.observation row)).trans ready.observed
  journaled := (assigns.journaled row).trans ready.journaled
  blockChanged := (assigns.blockChanged row).trans ready.blockChanged
  dirty := (assigns.dirty row).trans ready.dirty

theorem row_updateAccount (held : self.world.accounts.row id = some row)
    (update : AccountRow → AccountRow) :
    (self.updateAccount id update).world.accounts.row id = some (update row) := by
  obtain ⟨address, key⟩ := Table.key_eq_some_of_row held
  rw [accounts_updateAccount held, Table.row_set_same key]

theorem Assignable.assigned (assignable : Assignable self id row) (assigns : AssignsValues update) :
    Assignable (self.updateAccount id update) id (update row) :=
  ⟨row_updateAccount assignable.held update, assignable.running, assigns.ready assignable.ready⟩

theorem assign_row (assigns : AssignsValues update)
    (step : ∀ self, Assignable self id row →
      Assignment env licence self (self.updateAccount id update)) :
    Keeps (assignments env licence) (fun self => Assignable self id row)
      (Action.modify (updateAccount id update) : Method Unit) fun _ => Prepared id :=
  assign fun self assignable => ⟨step self assignable, (assignable.assigned assigns).prepared⟩

theorem updateAccountEffect_run_none (held : self.world.accounts.row id = some row)
    (missing : self.observedAccounts[row.observation.index]? = none)
    (update : AccountEffect → AccountEffect) : updateAccountEffect id update self = .illegal := by
  unfold updateAccountEffect accountObservation
  rw [Action.bind_run, accountRow_run held]
  dsimp only
  rw [Action.bind_run, Action.bind_run, accountRow_run held]
  dsimp only
  rw [Action.bind_run, Action.get_run]
  dsimp only
  rw [missing]
  rfl

theorem assign_effect {effect : AccountEffect → AccountEffect}
    (step : ∀ self observed, Assignable self id row →
      self.observedAccounts[row.observation.index]? = some observed →
        Assignment env licence self (setAccountEffect row.observation.index effect self)) :
    Keeps (assignments env licence) (fun self => Assignable self id row) (updateAccountEffect id effect)
      fun _ => Prepared id := by
  intro self _ assignable
  cases found : self.observedAccounts[row.observation.index]? with
  | none =>
      rw [updateAccountEffect_run_none assignable.held found]
      trivial
  | some observed =>
      rw [updateAccountEffect_run assignable.held found]
      exact ⟨trivial, .single (step self observed assignable found), row, assignable.held,
        assignable.running, assignable.ready⟩

/-- Assign to a prepared row and to the effect of its record. -/
theorem assign_rowEffect {id : AccountId} {row : AccountRow} {update : AccountRow → AccountRow}
    {effect : AccountEffect → AccountEffect} (assigns : AssignsValues update)
    (step : ∀ self observed, Assignable self id row →
      self.observedAccounts[row.observation.index]? = some observed →
      Assignment env licence self
        (setAccountEffect row.observation.index effect (self.updateAccount id update))) :
    Keeps (assignments env licence) (fun self => Assignable self id row)
      (do
        Action.modify (updateAccount id update)
        updateAccountEffect id effect : Method Unit) fun _ => Prepared id := by
  intro self _ assignable
  have assigned := assignable.assigned assigns
  have same : (update row).observation = row.observation := assigns.observation row
  rw [Action.bind_run, Action.modify_run]
  dsimp only
  cases found : self.observedAccounts[row.observation.index]? with
  | none =>
      rw [← same] at found
      rw [updateAccountEffect_run_none assigned.held found]
      trivial
  | some observed =>
      have later := step self observed assignable found
      rw [← same] at found later
      rw [updateAccountEffect_run assigned.held found]
      exact ⟨trivial, .single later, update row, assigned.held, assigned.running, assigned.ready⟩

/-- Do with a prepared row what holds of it as it was read. -/
theorem with_row
    (kept : ∀ row, Keeps (assignments env licence) (fun self => Assignable self id row) body post) :
    Keeps (assignments env licence) (Prepared id) body post := by
  rintro self invariant ⟨row, held, running, ready⟩
  exact kept row self invariant ⟨held, running, ready⟩

theorem writeAccount_assigned (id : AccountId) (value : Option Account)
    (allowed : value.isSome ∨ licence = .finalization) (writes : licence.WritesAccounts) :
    Keeps (assignments env licence) (fun _ => True) (writeAccount env id value) fun _ =>
      Prepared id := by
  unfold writeAccount
  refine Keeps.bind assertMutable_running fun _ => ?_
  refine Keeps.bind ((observeAccount_assigned id _).imp (fun _ _ => trivial)
    fun _ _ holds => holds) fun _ => ?_
  refine Keeps.bind (prepareAccountMutation_assigned id) fun _ => ?_
  refine Keeps.bind (accountRow_reads id) fun row => Keeps.bind Keeps.get fun state => ?_
  refine Keeps.imp (@assign_rowEffect env licence id row _ _ ?_ ?_) ?_ fun _ _ holds => holds
  · exact fun _ => rfl
  · exact fun self observed assignable found => .wrote assignable found value allowed _ writes
  · rintro self ⟨-, held, prepared⟩
    exact prepared.assignable held

theorem wipeStorage_assigned (id : AccountId) {address : Address}
    (allowed : licence.Wipes address) :
    Keeps (assignments env licence) (fun self => self.world.accounts.key id = some address)
      (wipeStorage env id) fun _ => Prepared id := by
  unfold wipeStorage
  refine Keeps.bind ((keeps_key (observeAccount_assigned id _)).imp (fun _ key => ⟨key, trivial⟩)
    fun _ _ holds => holds) fun _ => ?_
  refine Keeps.bind (accountRow_reads id) fun original => Keeps.bind Keeps.get fun state => ?_
  have known : ∀ self, state = self ∧ self.world.accounts.row id = some original ∧
      self.world.accounts.key id = some address ∧ Running self →
      self.world.accounts.key id = some address ∧ Holds id original state.lifetime self := by
    rintro self ⟨rfl, held, key, running⟩
    exact ⟨key, held, running, rfl⟩
  refine Keeps.imp ?_ known fun _ _ holds => holds
  have ignores : IgnoresRequests fun self : WorldState =>
      self.world.accounts.key id = some address ∧ Holds id original state.lifetime self :=
    fun self requests holds => ⟨holds.1, Holds.ignoresRequests id original _ self requests holds.2⟩
  refine Keeps.bind (when_reserve_assigned _ ignores) fun _ => ?_
  refine Keeps.bind (when_reserve_assigned _ ignores) fun _ => ?_
  refine Keeps.bind (keeps_key (prepareAccountMutation_holds id original state.lifetime)) fun _ => ?_
  refine Keeps.bind (accountRow_reads id) fun row => ?_
  refine Keeps.bind (Keeps.liftOption _) fun incarnation => assign ?_
  rintro self ⟨next, rowHeld, key, holds, ready⟩
  obtain rfl := holds.key_row rowHeld
  obtain ⟨held, running, lifetime⟩ := holds
  have assignable : Assignable self id (preparedRow original state.lifetime) :=
    ⟨held, running, lifetime ▸ ready⟩
  have wiped : Assignment env licence self _ := .wiped assignable key allowed next
  rw [lifetime] at wiped
  refine ⟨wiped, _, row_updateAccount held _, running, ?_⟩
  exact ⟨assignable.ready.observed, assignable.ready.journaled, rfl, assignable.ready.dirty⟩

theorem prepareLifecycleMutation_assigned (id : AccountId) (writes : licence.WritesAccounts) :
    Keeps (assignments env licence) Running (prepareLifecycleMutation env id) fun _ => Prepared id := by
  unfold prepareLifecycleMutation
  refine Keeps.bind (accountRow_reads id) fun original => Keeps.bind Keeps.get fun state => ?_
  have known : ∀ self, state = self ∧ self.world.accounts.row id = some original ∧ Running self →
      Holds id original state.lifetime self := by
    rintro self ⟨rfl, held, running⟩
    exact ⟨held, running, rfl⟩
  refine Keeps.imp ?_ known fun _ _ holds => holds
  have ignores := Holds.ignoresRequests id original state.lifetime
  refine Keeps.bind (when_reserve_assigned _ ignores) fun _ => ?_
  refine Keeps.bind (prepareAccountMutation_holds id original state.lifetime) fun _ => ?_
  refine Keeps.when _ (fun first => ?_) fun _ self holds => holds.1.prepared holds.2
  rintro self _ ⟨⟨held, running, lifetime⟩, ready⟩
  have assignable : Assignable self id (preparedRow original state.lifetime) :=
    ⟨held, running, lifetime ▸ ready⟩
  have enlisted : Assignment env licence self (enlist id self.lifetime.transaction self) := by
    apply Assignment.enlisted assignable
    · rw [lifetime]
      exact first
    · exact writes
  rw [lifetime] at enlisted
  refine ⟨trivial, .single enlisted, _, row_updateAccount held _, running, ?_⟩
  exact ⟨assignable.ready.observed, assignable.ready.journaled, assignable.ready.blockChanged,
    assignable.ready.dirty⟩

/-! ## Account calls -/

section Writing

variable (writes : licence.WritesAccounts)
include writes

theorem setBalance_assigned (address : Address) (balance : U256) :
    Safe (assignments env licence) (setBalance env address balance) := by
  unfold setBalance
  refine Safe.bind (requireAccount_assigned address).safe fun id =>
    Safe.bind (accountRow_looks id).safe fun row => ?_
  dsimp only
  split
  · exact Safe.pure _
  · exact (writeAccount_assigned id _ (.inl rfl) writes).safe

theorem setNonce_assigned (address : Address) (nonce : U64) :
    Safe (assignments env licence) (setNonce env address nonce) := by
  unfold setNonce
  refine Safe.bind (requireAccount_assigned address).safe fun id =>
    Safe.bind (accountRow_looks id).safe fun row => ?_
  dsimp only
  split
  · exact Safe.pure _
  · exact (writeAccount_assigned id _ (.inl rfl) writes).safe

theorem addBalance_assigned (address : Address) (value : U256) :
    Safe (assignments env licence) (addBalance env address value) := by
  unfold addBalance
  split
  · exact Safe.pure _
  · refine Safe.bind (getBalance_assigned address) fun balance => ?_
    split
    · exact setBalance_assigned writes address _
    · exact Safe.fail _

theorem subtractBalance_assigned (address : Address) (value : U256) :
    Safe (assignments env licence) (subtractBalance env address value) := by
  unfold subtractBalance
  split
  · exact Safe.pure _
  · refine Safe.bind (getBalance_assigned address) fun balance => ?_
    split
    · exact Safe.pure _
    · exact Safe.bind (setBalance_assigned writes address _) fun _ => Safe.pure _

theorem assignCode_assigned (id : AccountId) (cached : CodeStore.CacheResult) :
    Keeps (assignments env licence) (Prepared id) (assignCode id cached) fun _ => Prepared id := by
  unfold assignCode
  refine Keeps.bind (accountRow_reads id) fun row => ?_
  refine Keeps.imp (@assign_rowEffect env licence id row _ _ ?_ ?_) ?_ fun _ _ holds => holds
  · exact fun _ => rfl
  · exact fun self observed assignable found =>
      .wrote assignable found _ (.inl rfl) (fun _ => cached.ref) writes
  · rintro self ⟨held, prepared⟩
    exact prepared.assignable held

theorem touchAccount_assigned (address : Address) :
    Safe (assignments env licence) (touchAccount env address) := by
  unfold touchAccount
  refine Keeps.bind ((requireAccount_assigned address).imp (fun _ _ => trivial)
    fun _ _ _ => trivial) fun id => ?_
  refine Keeps.bind (observeAccount_assigned id _) fun _ => ?_
  refine Keeps.bind (accountRow_reads id) fun row => ?_
  split
  · exact Keeps.forget (Keeps.pure _)
  · rename_i untouched
    have first : row.flags.touched = false := Bool.eq_false_of_not_eq_true untouched
    rintro self _ ⟨held, running⟩
    refine Keeps.bind (prepareAccountMutation_holds id row self.lifetime) (fun _ => assign ?_) self
      trivial ⟨held, running, rfl⟩
    rintro later ⟨⟨laterHeld, laterRunning, lifetime⟩, ready⟩
    exact ⟨.touched ⟨laterHeld, laterRunning, lifetime ▸ ready⟩ first writes, trivial⟩

end Writing

theorem writes_of_introduces (introduces : licence.Introduces) : licence.WritesAccounts := by
  cases licence with
  | introduction => trivial
  | _ => exact introduces.elim

theorem introduceCode_assigned (introduces : licence.Introduces) (id : AccountId)
    (cached : CodeStore.CacheResult) (introduced : Nat) :
    Keeps (assignments env licence) Running (introduceCode env id cached introduced) fun _ _ =>
      True := by
  unfold introduceCode
  refine Keeps.bind (reserve_assigned fun _ _ holds => holds) fun _ => ?_
  refine Keeps.bind (reserve_assigned fun _ _ holds => holds) fun _ => ?_
  refine Keeps.bind (prepareAccountMutation_assigned id) fun _ => ?_
  have listed : Keeps (assignments env licence) (Prepared id)
      (Action.modify (listIntroduced introduced) : Method Unit) fun _ => Prepared id :=
    assign fun self prepared => ⟨.introduced prepared.running introduced introduces, prepared⟩
  exact Keeps.bind listed fun _ =>
    Keeps.forget (assignCode_assigned (writes_of_introduces introduces) id cached)

theorem setCode_assigned (introduces : licence.Introduces) (address : Address) (bytes : Bytes) :
    Safe (assignments env licence) (setCode env address bytes) := by
  unfold setCode
  refine Keeps.bind ((requireAccount_assigned address).imp (fun _ _ => trivial)
    fun _ _ _ => trivial) fun id => ?_
  refine Keeps.bind (observeAccount_assigned id _) fun _ => ?_
  refine Keeps.bind (running_of_safe (Safe.read _)) fun introducedLen => ?_
  refine Keeps.bind (resolveCode_keeps bytes) fun resolved => ?_
  cases resolved with
  | inl cached =>
      exact Keeps.bind (prepareAccountMutation_assigned id) fun _ =>
        Keeps.forget (assignCode_assigned (writes_of_introduces introduces) id cached)
  | inr hash =>
      refine Keeps.bind (running_of_safe (enterIntroduced_assigned introduces hash bytes))
        fun cached => ?_
      split
      · exact Keeps.illegal
      · exact Keeps.errdefer (fun self _ => ⟨trivial, .single (.stored self _ introduces)⟩)
          (introduceCode_assigned introduces id cached _)

/-! ## Warmth -/

theorem warmAccountId_changes (id : AccountId) :
    Safe (changes env licence) (warmAccountId env id) := by
  unfold warmAccountId
  refine Keeps.bind assertSession_running fun _ => ?_
  refine Keeps.bind (accountRow_reads id) fun row => Keeps.bind Keeps.get fun state => ?_
  split
  · exact Keeps.forget (Keeps.pure _)
  · rename_i cold
    have known : ∀ self, state = self ∧ self.world.accounts.row id = some row ∧ Running self ∧ True →
        Holds id row state.lifetime self := by
      rintro self ⟨rfl, held, running, -⟩
      exact ⟨held, running, rfl⟩
    refine Keeps.imp ?_ known fun _ _ holds => holds
    refine Keeps.bind (accountAddress_looks id).kept fun address => ?_
    refine Keeps.bind (changes_of_assignments (reserve_assigned (Holds.ignoresRequests _ _ _)))
      fun _ => ?_
    refine Keeps.bind (Keeps.modify fun self _ holds => ⟨trivial, .single ?_, trivial⟩) fun _ =>
      Safe.pure _
    obtain ⟨held, running, lifetime⟩ := holds
    rw [← lifetime] at cold
    exact .warmedAccount held running cold

theorem warmStorageId_changes (id : StorageId) :
    Safe (changes env licence) (warmStorageId env id) := by
  unfold warmStorageId
  refine Keeps.bind assertSession_running fun _ => ?_
  refine Keeps.bind (storageRow_reads id) fun row => Keeps.bind Keeps.get fun state => ?_
  split
  · exact Keeps.forget (Keeps.pure _)
  · rename_i cold
    have known : ∀ self, state = self ∧ self.world.storage.row id = some row ∧ Running self ∧ True →
        row.warmTransaction ≠ self.lifetime.transaction ∧ self.world.storage.row id = some row ∧
          Running self := by
      rintro self ⟨rfl, held, running, -⟩
      exact ⟨cold, held, running⟩
    refine Keeps.imp ?_ known fun _ _ holds => holds
    refine Keeps.bind (storageKey_looks id).kept fun key => ?_
    refine Keeps.bind (accountAddress_looks key.account).kept fun address => ?_
    refine Keeps.bind (changes_of_assignments (reserve_assigned fun _ _ holds => holds)) fun _ => ?_
    refine Keeps.bind (Keeps.modify fun self _ holds => ⟨trivial, .single ?_, trivial⟩) fun _ =>
      Safe.pure _
    obtain ⟨cold, held, running⟩ := holds
    exact .warmedSlot held running cold

theorem deferAccountWarm_changes (address : Address) (grows : env.growsOnTouch = true) :
    Safe (changes env licence) (deferAccountWarm env address) := by
  unfold deferAccountWarm
  refine Keeps.bind assertSession_running fun _ => Keeps.bind Keeps.get fun state => ?_
  split
  · exact Keeps.forget (Keeps.pure _)
  · rename_i notWarm
    rw [deferredAccountWarm, if_pos grows] at notWarm
    have known : ∀ self, state = self ∧ Running self ∧ True →
        (self.deferredWarmth.accounts.value address).getD false = false ∧ Running self := by
      rintro self ⟨rfl, running, -⟩
      exact ⟨Bool.eq_false_of_not_eq_true notWarm, running⟩
    refine Keeps.imp ?_ known fun _ _ holds => holds
    refine Keeps.bind (changes_of_assignments (reserve_assigned fun _ _ holds => holds)) fun _ => ?_
    refine Keeps.bind (changes_of_assignments (reserve_assigned fun _ _ holds => holds)) fun _ => ?_
    rintro self _ ⟨cold, running⟩
    rw [Action.bind_run, Action.modify_run]
    dsimp only
    rw [Action.bind_run, Action.get_run]
    dsimp only
    rw [Action.bind_run]
    cases found : (self.deferredWarmth.accounts.put address true).find address with
    | none => trivial
    | some entry => exact ⟨trivial, .single (.deferredAccount grows running cold found), trivial⟩

theorem deferStorageWarm_changes (address : Address) (slot : U256) (grows : env.growsOnTouch = true) :
    Safe (changes env licence) (deferStorageWarm env address slot) := by
  unfold deferStorageWarm
  refine Keeps.bind assertSession_running fun _ => Keeps.bind Keeps.get fun state => ?_
  split
  · exact Keeps.forget (Keeps.pure _)
  · rename_i notWarm
    rw [deferredStorageWarm, if_pos grows] at notWarm
    have known : ∀ self, state = self ∧ Running self ∧ True →
        (self.deferredWarmth.storage.value ⟨address, slot⟩).getD false = false ∧ Running self := by
      rintro self ⟨rfl, running, -⟩
      exact ⟨Bool.eq_false_of_not_eq_true notWarm, running⟩
    refine Keeps.imp ?_ known fun _ _ holds => holds
    refine Keeps.bind (changes_of_assignments (reserve_assigned fun _ _ holds => holds)) fun _ => ?_
    refine Keeps.bind (changes_of_assignments (reserve_assigned fun _ _ holds => holds)) fun _ => ?_
    rintro self _ ⟨cold, running⟩
    rw [Action.bind_run, Action.modify_run]
    dsimp only
    rw [Action.bind_run, Action.get_run]
    dsimp only
    rw [Action.bind_run]
    cases found : (self.deferredWarmth.storage.put ⟨address, slot⟩ true).find ⟨address, slot⟩ with
    | none => trivial
    | some entry => exact ⟨trivial, .single (.deferredSlot grows running cold found), trivial⟩

theorem warmAccount_changes (address : Address) :
    Safe (changes env licence) (warmAccount env address) := by
  unfold warmAccount
  refine Safe.bind (changes_of_assignments (resolveAccount_assigned address _)).safe fun found => ?_
  split
  · exact Safe.bind (warmAccountId_changes _) fun _ => Safe.pure _
  · split
    · rename_i grows
      exact Safe.bind (deferAccountWarm_changes address grows) fun _ => Safe.pure _
    · exact Safe.pure _

theorem warmStorageAddress_changes (address : Address) (slot : U256) :
    Safe (changes env licence) (warmStorageAddress env address slot) := by
  unfold warmStorageAddress
  refine Keeps.bind (changes_of_assignments (resolveAccount_assigned address _)) fun found => ?_
  split
  · split
    · rename_i grows
      exact (Safe.map some (deferStorageWarm_changes address slot grows)).imp
        (fun _ _ => trivial) fun _ _ holds => holds
    · exact Keeps.forget (Keeps.pure _)
  · rename_i account
    refine Keeps.bind ((changes_of_assignments (resolveStorage_assigned account slot address _)).imp
      (fun _ key => key account rfl) fun _ _ _ => trivial) fun held => ?_
    split
    · split
      · rename_i grows
        exact Safe.bind (accountAddress_looks account).safe fun owner =>
          Safe.map some (deferStorageWarm_changes owner slot grows)
      · exact Safe.pure _
    · exact Safe.map some (warmStorageId_changes _)

/-! ## Storage -/

theorem resolvedValue_looks (resolved : ResolvedStorage) : Looks (resolvedValue resolved) :=
  (accountRow_looks _).bind fun _ => (storageRow_looks _).bind fun _ => Looks.pure _

theorem resolvedValue_reads (resolved : ResolvedStorage) :
    Keeps discipline pre (resolvedValue resolved) fun value after => ∃ account row,
      after.world.accounts.row resolved.account = some account ∧
      after.world.storage.row resolved.storage = some row ∧
      value = effectiveValue account row ∧ pre after := by
  unfold resolvedValue
  refine Keeps.bind (accountRow_reads _) fun account => Keeps.bind (storageRow_reads _) fun row => ?_
  refine Keeps.returns ?_
  rintro _ after ⟨rfl, held, accountHeld, condition⟩
  exact ⟨account, row, accountHeld, held, rfl, condition⟩

/-- The original value of the slot is known. -/
def OriginalKnown (resolved : ResolvedStorage) (self : WorldState) : Prop :=
  ∃ account row, self.world.accounts.row resolved.account = some account ∧
    self.world.storage.row resolved.storage = some row ∧
    (account.flags.created = true ∨ row.executionOriginalRoot = self.lifetime.root)

theorem row_updateStorage {id : StorageId} {row : StorageRow}
    (held : self.world.storage.row id = some row) (update : StorageRow → StorageRow) :
    (self.updateStorage id update).world.storage.row id = some (update row) := by
  obtain ⟨key, found⟩ := Table.key_eq_some_of_row held
  rw [storage_updateStorage held, Table.row_set_same found]

theorem executionOriginal_assigned (resolved : ResolvedStorage) (current : U256) :
    Keeps (assignments env licence)
      (fun self => ∃ account row, self.world.accounts.row resolved.account = some account ∧
        self.world.storage.row resolved.storage = some row ∧ current = effectiveValue account row ∧
        Owned resolved self ∧ Running self)
      (executionOriginal resolved current) fun _ => OriginalKnown resolved := by
  unfold executionOriginal
  refine Keeps.bind (accountRow_reads _) fun account => ?_
  split
  · rename_i created
    refine Keeps.returns ?_
    rintro _ after ⟨-, held, _, row, -, rowHeld, -⟩
    exact ⟨account, row, held, rowHeld, .inl created⟩
  · rename_i notCreated
    refine Keeps.bind (storageRow_reads _) fun row => Keeps.bind Keeps.get fun state => ?_
    split
    · rename_i stale
      refine Keeps.bind (Keeps.assert _) fun _ => ?_
      rintro self _ ⟨root, rfl, held, accountHeld, other, otherRow, otherHeld, otherRowHeld, rfl, owned,
        running⟩
      obtain rfl := Option.some.inj (held.symm.trans otherRowHeld)
      obtain rfl := Option.some.inj (accountHeld.symm.trans otherHeld)
      have cached : Assignment env licence state _ := .cachedOriginal accountHeld owned held running
        (Bool.eq_false_of_not_eq_true notCreated) stale root
      refine ⟨trivial, .single cached, account, _, ?_, row_updateStorage held _, .inr rfl⟩
      rw [accounts_updateStorage]
      exact accountHeld
    · rename_i same
      refine Keeps.returns ?_
      rintro _ after ⟨-, rfl, held, accountHeld, -⟩
      exact ⟨account, row, accountHeld, held, .inr (not_not.mp same)⟩

/-- `writeResolvedStorage` after its reservations. -/
def commitWrite (resolved : ResolvedStorage) (account : AccountRow) (row : StorageRow)
    (lifetime : Lifetimes) (value : U256) : Method Unit := do
  Action.when (row.journaledScope ≠ lifetime.scope) (appendStorageUndo resolved.storage)
  Action.modify (markStorageDirty resolved.account
    (account.flags.storageDirty = false ∧ account.journaledScope ≠ lifetime.scope))
  Action.modify (assignStorage resolved.storage (row.flags.blockDirty = false)
    (row.transactionUndo.transaction ≠ lifetime.transaction) value account.storageIncarnation)
  updateStorageEffect resolved.storage fun _ => { written := true }

theorem storageObservation_run_none {id : StorageId} {row : StorageRow}
    (held : self.world.storage.row id = some row)
    (missing : self.observedStorage[row.observation.index]? = none) :
    storageObservation id self = .illegal := by
  unfold storageObservation
  rw [Action.bind_run, storageRow_run held]
  dsimp only
  rw [Action.bind_run, Action.get_run]
  dsimp only
  rw [missing]
  rfl

theorem appendStorageUndo_run {id : StorageId} {row : StorageRow} {observed : StorageObservationRow}
    (held : self.world.storage.row id = some row)
    (found : self.observedStorage[row.observation.index]? = some observed) :
    appendStorageUndo id self = .ok () (journalSlot id row observed.effect self) := by
  unfold appendStorageUndo
  rw [Action.bind_run, storageRow_run held]
  dsimp only
  rw [Action.bind_run, storageObservation_run held found]
  rfl

theorem appendStorageUndo_run_none {id : StorageId} {row : StorageRow}
    (held : self.world.storage.row id = some row)
    (missing : self.observedStorage[row.observation.index]? = none) :
    appendStorageUndo id self = .illegal := by
  unfold appendStorageUndo
  rw [Action.bind_run, storageRow_run held]
  dsimp only
  rw [Action.bind_run, storageObservation_run_none held missing]

/-- Journaling keeps the slot's record. -/
theorem journalSlotFirst_slot {id : StorageId} {row : StorageRow} (effect : StorageEffect)
    (held : self.world.storage.row id = some row) :
    ∃ other, (journalSlotFirst id row effect self).world.storage.row id = some other ∧
      other.observation = row.observation := by
  unfold journalSlotFirst
  split
  · refine ⟨_, row_updateStorage ?_ _, rfl⟩
    exact held
  · exact ⟨row, held, rfl⟩

theorem journalSlotFirst_observed (id : StorageId) (row : StorageRow) (effect : StorageEffect) :
    (journalSlotFirst id row effect self).observedStorage = self.observedStorage := by
  unfold journalSlotFirst
  split <;> rfl

theorem markStorageDirty_storage (id : AccountId) (needsUndo : Bool) :
    (markStorageDirty id needsUndo self).world.storage = self.world.storage := by
  unfold markStorageDirty updateAccount World.updateAccount
  split <;> split <;> rfl

theorem markStorageDirty_observed (id : AccountId) (needsUndo : Bool) :
    (markStorageDirty id needsUndo self).observedStorage = self.observedStorage := by
  unfold markStorageDirty
  split <;> rfl

theorem updateStorageEffect_run_none {id : StorageId} {row : StorageRow}
    (held : self.world.storage.row id = some row)
    (missing : self.observedStorage[row.observation.index]? = none)
    (update : StorageEffect → StorageEffect) : updateStorageEffect id update self = .illegal := by
  unfold updateStorageEffect
  rw [Action.bind_run, storageRow_run held]
  dsimp only
  rw [Action.bind_run, storageObservation_run_none held missing]

/-- The row a write ends on still has its record. -/
theorem written_record {row other : StorageRow}
    (held : self.world.storage.row resolved.storage = some other)
    (same : other.observation = row.observation) (needsUndo firstDirty firstTransactionWrite : Bool)
    (value : U256) (incarnation : Incarnation) :
    ∃ last, (assignStorage resolved.storage firstDirty firstTransactionWrite value
        incarnation (markStorageDirty resolved.account needsUndo self)).world.storage.row
        resolved.storage = some last ∧ last.observation = row.observation ∧
      (assignStorage resolved.storage firstDirty firstTransactionWrite value
        incarnation (markStorageDirty resolved.account needsUndo self)).observedStorage =
        self.observedStorage := by
  rw [← markStorageDirty_storage resolved.account needsUndo] at held
  exact ⟨_, row_updateStorage held _, same, markStorageDirty_observed resolved.account needsUndo⟩

theorem commitWrite_run {account : AccountRow} {row : StorageRow} {observed : StorageObservationRow}
    (held : self.world.storage.row resolved.storage = some row)
    (found : self.observedStorage[row.observation.index]? = some observed) (value : U256) :
    commitWrite resolved account row self.lifetime value self =
      .ok () (storeSlot resolved account row observed.effect value self) := by
  have journaled : Action.when (row.journaledScope ≠ self.lifetime.scope)
      (appendStorageUndo resolved.storage) self =
      .ok () (journalSlotFirst resolved.storage row observed.effect self) := by
    unfold Action.when journalSlotFirst
    split
    · exact appendStorageUndo_run held found
    · rfl
  obtain ⟨other, otherHeld, same⟩ := journalSlotFirst_slot observed.effect held
  obtain ⟨last, lastHeld, lastSame, list⟩ := written_record otherHeld same
    (account.flags.storageDirty = false ∧ account.journaledScope ≠ self.lifetime.scope)
    (row.flags.blockDirty = false) (row.transactionUndo.transaction ≠ self.lifetime.transaction) value
    account.storageIncarnation
  unfold commitWrite storeSlot
  rw [Action.bind_run, journaled]
  dsimp only
  rw [Action.bind_run, Action.modify_run]
  dsimp only
  rw [Action.bind_run, Action.modify_run]
  dsimp only
  rw [← lastSame] at found ⊢
  rw [← journalSlotFirst_observed resolved.storage row observed.effect, ← list] at found
  exact updateStorageEffect_run lastHeld found _

theorem commitWrite_run_none {account : AccountRow} {row : StorageRow}
    (held : self.world.storage.row resolved.storage = some row)
    (missing : self.observedStorage[row.observation.index]? = none) (value : U256) :
    commitWrite resolved account row self.lifetime value self = .illegal := by
  obtain ⟨last, lastHeld, lastSame, list⟩ := written_record held rfl
    (account.flags.storageDirty = false ∧ account.journaledScope ≠ self.lifetime.scope)
    (row.flags.blockDirty = false) (row.transactionUndo.transaction ≠ self.lifetime.transaction) value
    account.storageIncarnation
  unfold commitWrite
  by_cases needed : row.journaledScope ≠ self.lifetime.scope
  · rw [Action.bind_run, Action.when, if_pos needed, appendStorageUndo_run_none held missing]
  · rw [Action.bind_run, Action.when, if_neg needed, Action.pure_run]
    dsimp only
    rw [Action.bind_run, Action.modify_run]
    dsimp only
    rw [Action.bind_run, Action.modify_run]
    dsimp only
    rw [← lastSame, ← list] at missing
    exact updateStorageEffect_run_none lastHeld missing _

theorem writeResolvedStorage_assigned (writes : licence.WritesSlots) (resolved : ResolvedStorage)
    (value : U256) :
    Keeps (assignments env licence)
      (fun self => OriginalKnown resolved self ∧ Owned resolved self ∧ Running self)
      (writeResolvedStorage env resolved value) fun _ _ => True := by
  unfold writeResolvedStorage
  refine Keeps.bind (accountRow_reads _) fun account => ?_
  refine Keeps.bind (storageRow_reads _) fun row => ?_
  refine Keeps.bind (Keeps.assert _) fun _ => Keeps.bind Keeps.get fun state => ?_
  have known : ∀ self, state = self ∧ row.observation.transaction = self.lifetime.transaction ∧
      self.world.storage.row resolved.storage = some row ∧
      self.world.accounts.row resolved.account = some account ∧ OriginalKnown resolved self ∧
      Owned resolved self ∧ Running self →
      Storable self resolved account row ∧ state.lifetime = self.lifetime := by
    rintro self ⟨rfl, observed, held, accountHeld, ⟨other, slot, otherHeld, slotHeld, original⟩, owned,
      running⟩
    obtain rfl := Option.some.inj (accountHeld.symm.trans otherHeld)
    obtain rfl := Option.some.inj (held.symm.trans slotHeld)
    exact ⟨⟨accountHeld, owned, held, running, observed, original⟩, rfl⟩
  refine Keeps.imp ?_ known fun _ _ holds => holds
  have ignores : IgnoresRequests fun self : WorldState =>
      Storable self resolved account row ∧ state.lifetime = self.lifetime := by
    rintro self requests ⟨⟨accountHeld, owned, held, running, observed, original⟩, lifetime⟩
    exact ⟨⟨accountHeld, owned, held, running, observed, original⟩, lifetime⟩
  refine Keeps.bind (when_reserve_assigned _ ignores) fun _ => ?_
  refine Keeps.bind (when_reserve_assigned _ ignores) fun _ => ?_
  refine Keeps.bind (when_reserve_assigned _ ignores) fun _ => ?_
  refine Keeps.bind (when_reserve_assigned _ ignores) fun _ => ?_
  change Keeps (assignments env licence) _ (commitWrite resolved account row state.lifetime value) _
  rintro self _ ⟨storable, lifetime⟩
  rw [lifetime]
  cases found : self.observedStorage[row.observation.index]? with
  | none =>
      rw [commitWrite_run_none storable.slotHeld found]
      trivial
  | some observed =>
      rw [commitWrite_run storable.slotHeld found]
      exact ⟨trivial, .single (.wroteSlot storable found value writes), trivial⟩

theorem observeStorage_owned (resolved : ResolvedStorage) (observation : StorageObservation) :
    Keeps (assignments env licence) (Owned resolved) (observeStorage env resolved observation)
      fun _ self => Owned resolved self ∧ Running self :=
  (keeps_slot (observeStorage_assigned resolved observation)).imp (fun _ owned => ⟨owned, trivial⟩)
    fun _ _ holds => holds

theorem setResolvedStorage_assigned (writes : licence.WritesSlots) (resolved : ResolvedStorage)
    (value : U256) :
    Keeps (assignments env licence) (Owned resolved) (setResolvedStorage env resolved value)
      fun _ _ => True := by
  unfold setResolvedStorage
  refine Keeps.bind (observeStorage_owned resolved _) fun _ => ?_
  refine Keeps.bind (resolvedValue_reads resolved) fun current => ?_
  refine Keeps.bind (Keeps.imp (keeps_run (@keeps_slot env licence _ _ resolved _ _
    (executionOriginal_assigned resolved current))) ?_ fun _ _ holds => holds) fun original => ?_
  · rintro self ⟨account, row, accountHeld, held, same, owned, running⟩
    exact ⟨running, owned, account, row, accountHeld, held, same, owned, running⟩
  · split
    · exact Keeps.forget (Keeps.pure _)
    · refine Keeps.bind ((writeResolvedStorage_assigned writes resolved value).imp ?_
        fun _ _ holds => holds) fun _ => Safe.pure _
      rintro self ⟨running, owned, settled⟩
      exact ⟨settled, owned, running⟩

theorem readResolvedStorage_assigned (resolved : ResolvedStorage) :
    Safe (assignments env licence) (readResolvedStorage env resolved) :=
  Safe.bind (observeStorage_assigned resolved _).safe fun _ => (resolvedValue_looks resolved).safe

theorem accessResolvedStorage_changes (resolved : ResolvedStorage) :
    Safe (changes env licence) (accessResolvedStorage env resolved) :=
  Safe.bind (warmStorageId_changes _) fun _ => Safe.pure _

theorem requireStorage_owned (address : Address) (slot : U256) :
    Keeps (assignments env licence) (fun _ => True) (requireStorage env address slot) Owned :=
  (requireStorage_assigned address slot).weaken
    fun _ _ resolves => resolves.owned

theorem getStorage_assigned (address : Address) (slot : U256) :
    Safe (assignments env licence) (getStorage env address slot) := by
  unfold getStorage
  refine Safe.bind (requireStorage_owned address slot).safe fun resolved =>
    Safe.bind isAttemptOpen_looks.safe fun isOpen => ?_
  split
  · exact (resolvedValue_looks resolved).safe
  · exact Safe.bind (observeAccount_safe_assigned _ _) fun _ => readResolvedStorage_assigned resolved

theorem loadStorage_changes (address : Address) (slot : U256) :
    Safe (changes env licence) (loadStorage env address slot) :=
  Safe.bind (changes_of_assignments (requireStorage_owned address slot)).safe fun resolved =>
    Safe.bind (changes_of_assignments (observeAccount_safe_assigned _ _)) fun _ =>
    Safe.bind (accessResolvedStorage_changes resolved) fun _ =>
    Safe.bind (changes_of_assignments (readResolvedStorage_assigned resolved)) fun _ => Safe.pure _

theorem setStorage_assigned (writes : licence.WritesSlots) (address : Address) (slot value : U256) :
    Safe (assignments env licence) (setStorage env address slot value) := by
  unfold setStorage
  refine Keeps.bind (requireStorage_owned address slot) fun resolved => ?_
  refine Keeps.bind (slot_of_safe (observeAccount_safe_assigned _ _)) fun _ => ?_
  exact setResolvedStorage_assigned writes resolved value

/-- Warming leaves the storage rows in place. -/
theorem accessResolvedStorage_owned (resolved other : ResolvedStorage) :
    Keeps (changes env licence) (Owned other) (accessResolvedStorage env resolved) fun _ =>
      Owned other := by
  refine (Keeps.carry ?_ (accessResolvedStorage_changes resolved)).imp (fun _ owned => ⟨owned, trivial⟩)
    fun _ _ holds => holds.1
  rintro before after steps ⟨slot, key⟩
  exact ⟨slot, Changed.storageKey steps key⟩

theorem storeStorage_changes (writes : licence.WritesSlots) (address : Address) (slot value : U256) :
    Safe (changes env licence) (storeStorage env address slot value) := by
  unfold storeStorage
  refine Keeps.bind (changes_of_assignments (requireStorage_owned address slot)) fun resolved => ?_
  refine Keeps.bind (changes_of_assignments (slot_of_safe (observeAccount_safe_assigned _ _)))
    fun _ => ?_
  refine Keeps.bind (accessResolvedStorage_owned resolved resolved) fun access => ?_
  exact Keeps.bind (changes_of_assignments (setResolvedStorage_assigned writes resolved value)) fun _ =>
    Safe.pure _

/-! ## Transient storage and logs -/

/-- The slot's old value goes to the journal, its new one to the table. -/
def writeTransient (key : TransientKey) (value : U256) (self : WorldState) : WorldState :=
  { self with
    journal := .transientStorage key (self.transientValue key.address key.slot) :: self.journal
    transientStorage := self.transientStorage.put key value }

def asked (requests : Nat) (self : WorldState) : WorldState := { self with requests }

/-- What a call on transient storage leaves behind. -/
inductive TransientWrite (key : TransientKey) (value : U256) (self : WorldState) :
    Outcome WorldState StateError Unit → Prop
  | illegal : TransientWrite key value self .illegal
  | same (running : Running self) (same : self.transientValue key.address key.slot = value) :
      TransientWrite key value self (.ok () self)
  | refused (running : Running self) (error : StateError) (requests : Nat) :
      TransientWrite key value self (.fail error (asked requests self))
  | wrote (running : Running self) (changes : self.transientValue key.address key.slot ≠ value)
      (requests : Nat) :
      TransientWrite key value self (.ok () (writeTransient key value (asked requests self)))

theorem assertSession_run (self : WorldState) :
    assertSession self = .illegal ∨ (Running self ∧ assertSession self = .ok () self) := by
  by_cases running : self.transactionActive = true
  · by_cases session : self.SessionActive
    · right
      refine ⟨running, ?_⟩
      simp only [assertSession, Action.bind_run, Action.assert, if_pos running, if_pos session]
    · left
      simp only [assertSession, Action.bind_run, Action.assert, if_pos running, if_neg session]
  · left
    simp only [assertSession, Action.bind_run, Action.assert, if_neg running]

/-- A method that only makes requests. -/
def Asks (body : Method Unit) : Prop :=
  ∀ self, ∃ requests, body self = .ok () (asked requests self) ∨
    ∃ error, body self = .fail error (asked requests self)

theorem Asks.bind {body : Method Unit} {next : Unit → Method Unit} (first : Asks body)
    (second : ∀ value, Asks (next value)) : Asks (body >>= next) := by
  intro self
  rw [Action.bind_run]
  obtain ⟨requests, ran | ⟨error, ran⟩⟩ := first self
  · rw [ran]
    exact second () (asked requests self)
  · rw [ran]
    exact ⟨requests, .inr ⟨error, rfl⟩⟩

theorem Asks.reserve : Asks (reserve env) := by
  intro self
  refine ⟨self.requests + 1, ?_⟩
  unfold WorldState.reserve request
  dsimp only
  split
  · exact .inl rfl
  · exact .inr ⟨_, rfl⟩

theorem Asks.when (condition : Prop) [Decidable condition] {body : Method Unit} (asks : Asks body) :
    Asks (Action.when condition body) := by
  unfold Action.when
  split
  · exact asks
  · exact fun self => ⟨self.requests, .inl rfl⟩

theorem setTransientStorage_run (address : Address) (slot value : U256) (self : WorldState) :
    TransientWrite ⟨address, slot⟩ value self (setTransientStorage env address slot value self) := by
  unfold setTransientStorage
  rw [Action.bind_run]
  rcases assertSession_run self with stuck | ⟨running, passes⟩
  · rw [stuck]
    exact .illegal
  · rw [passes]
    dsimp only
    rw [Action.bind_run, Action.get_run]
    dsimp only
    split
    · rename_i same
      exact .same running same
    · rename_i changes
      have room : Asks (do
          Action.when (self.transientStorage.value ⟨address, slot⟩ = none) (reserve env)
          reserve env
          reserve env : Method Unit) :=
        (Asks.reserve.when _).bind fun _ => Asks.reserve.bind fun _ => Asks.reserve
      have grouped : ∀ update : WorldState → WorldState, (do
          Action.when (self.transientStorage.value ⟨address, slot⟩ = none) (reserve env)
          reserve env
          reserve env
          Action.modify update : Method Unit) = (do
            Action.when (self.transientStorage.value ⟨address, slot⟩ = none) (reserve env)
            reserve env
            reserve env : Method Unit) >>= fun _ => Action.modify update := by
        intro update
        simp only [bind_assoc]
      rw [grouped, Action.bind_run]
      obtain ⟨requests, ran | ⟨error, ran⟩⟩ := room self
      · rw [ran]
        exact @TransientWrite.wrote ⟨address, slot⟩ value self running changes requests
      · rw [ran]
        exact .refused running error requests

theorem clearTransientStorage_run (self : WorldState) :
    clearTransientStorage self = .illegal ∨ (Running self ∧
      clearTransientStorage self = .ok () { self with transientStorage := Table.empty }) := by
  unfold clearTransientStorage
  rw [Action.bind_run]
  rcases assertSession_run self with stuck | ⟨running, passes⟩
  · rw [stuck]
    exact .inl rfl
  · rw [passes]
    exact .inr ⟨running, rfl⟩

theorem emitLog_assigned (log : HostLog) : Safe (assignments env licence) (emitLog env log) := by
  have ignores : IgnoresRequests fun self => Running self ∧ True := fun _ _ holds => holds
  unfold emitLog
  refine Keeps.bind assertSession_running fun _ => ?_
  split
  · exact Keeps.fail _
  · refine Keeps.bind ((Keeps.assert _).weaken fun _ _ holds => holds.2) fun _ =>
      Keeps.bind (reserve_assigned ignores) fun _ => Keeps.bind (reserve_assigned ignores) fun _ =>
      Keeps.bind (reserve_assigned ignores) fun _ => assign ?_
    exact fun self holds => ⟨.logged holds.1 log, trivial⟩

theorem clearLogs_assigned (introduces : licence.Introduces) :
    Safe (assignments env licence) clearLogs := by
  refine assign_safe fun self => ?_
  split
  · exact .cleared self _ _ introduces
  · exact .cleared self _ _ introduces

/-! ## Lifecycle -/

theorem initializeContract_assigned (address : Address) (nonce : U64) :
    Safe (assignments env (.creation address)) (initializeContract env address nonce) := by
  unfold initializeContract
  refine Keeps.bind assertSession_running.safe fun _ => Keeps.bind (Safe.assert _) fun _ =>
    Keeps.bind (requireAccount_assigned address) fun id =>
    Keeps.bind (accountRow_looks id).kept fun row =>
    Keeps.bind (key_of_safe (writeAccount_assigned id _ (.inl rfl) (by trivial)).safe) fun _ =>
    Keeps.bind (wipeStorage_assigned id rfl) fun _ => ?_
  refine Keeps.bind ((prepareLifecycleMutation_assigned id (by trivial)).imp
    (fun _ prepared => prepared.running) fun _ _ holds => holds) fun _ => with_row fun row => ?_
  refine Keeps.forget (assign_rowEffect (fun _ => rfl) fun self observed assignable found => ?_)
  exact .created assignable found trivial

theorem markSelfdestructed_assigned (writes : licence.WritesAccounts) (address : Address) :
    Safe (assignments env licence) (markSelfdestructed env address) := by
  unfold markSelfdestructed
  refine Safe.bind (requireAccount_assigned address).safe fun id =>
    Safe.bind (accountRow_looks id).safe fun row => ?_
  split
  · exact Safe.pure _
  · refine Keeps.bind (observeAccount_assigned id _) fun _ => ?_
    refine Keeps.bind (prepareLifecycleMutation_assigned id writes) fun _ => with_row fun row => ?_
    refine Keeps.forget (assign_rowEffect (fun _ => rfl) fun self observed assignable found => ?_)
    exact .selfdestructed assignable found writes

theorem transferRemaining_assigned (writes : licence.WritesAccounts) (source beneficiary : Address)
    (balance : U256)
    (policy : SelfDestructPolicy) (touchZeroBeneficiary : Bool) :
    Safe (assignments env licence)
      (transferRemaining env source beneficiary balance policy touchZeroBeneficiary) := by
  unfold transferRemaining
  split
  · exact Safe.bind (Safe.when (addBalance_assigned writes _ _)) fun _ =>
      Safe.when (setBalance_assigned writes _ _)
  · exact Safe.when (touchAccount_assigned writes _)

theorem applySelfDestruct_assigned (writes : licence.WritesAccounts) (source beneficiary : Address)
    (policy : SelfDestructPolicy)
    (touchZeroBeneficiary : Bool) :
    Safe (assignments env licence)
      (applySelfDestruct env source beneficiary policy touchZeroBeneficiary) :=
  Safe.bind assertSession_running.safe fun _ => Safe.bind (Safe.assert _) fun _ =>
    Safe.bind (getBalance_assigned source) fun balance => Safe.bind (Safe.read _) fun _ =>
    Safe.bind (transferRemaining_assigned writes source beneficiary balance policy touchZeroBeneficiary)
      fun _ => Safe.bind (Safe.when (markSelfdestructed_assigned writes source)) fun _ => Safe.pure _

/-- Finalisation may wipe any account. -/
theorem wipeStorage_finalizes (id : AccountId) :
    Keeps (assignments env .finalization) (fun _ => True) (wipeStorage env id)
      fun _ => Prepared id := by
  intro self invariant _
  cases key : self.world.accounts.key id with
  | some address => exact @wipeStorage_assigned env .finalization id address trivial self invariant key
  | none =>
      have missing : self.world.accounts.row id = none := by
        by_contra held
        obtain ⟨row, found⟩ := Option.ne_none_iff_exists'.mp held
        obtain ⟨address, known⟩ := Table.key_eq_some_of_row found
        rw [key] at known
        cases known
      have looks : Looks assertMutable :=
        (Looks.assert _).bind fun _ => (Looks.assert _).bind fun _ => Looks.assert _
      rw [wipeStorage, Action.bind_run, observeAccount, Action.bind_run]
      rcases looks self with ⟨_, passes⟩ | stuck
      · rw [passes]
        dsimp only
        rw [Action.bind_run, accountRow_run_none missing]
        trivial
      · rw [stuck]
        trivial

theorem resetOrDelete_assigned (id : AccountId) (policy : SelfDestructFinalization) :
    Safe (assignments env .finalization) (resetOrDelete env id policy) := by
  unfold resetOrDelete
  split
  · exact Safe.bind (accountRow_looks id).safe fun row =>
      (writeAccount_assigned id _ (.inr rfl) (by trivial)).safe
  · exact Safe.when (writeAccount_assigned id _ (.inr rfl) (by trivial)).safe

theorem finalizeSelfdestructed_assigned (id : AccountId) (policy : SelfDestructFinalization) :
    Keeps (assignments env .finalization) Running (finalizeSelfdestructed env id policy) fun _ _ =>
      True := by
  have wipe : Safe (assignments env .finalization) (do
      wipeStorage env id
      updateAccountEffect id fun effect => { effect with storageWiped := true } : Method Unit) := by
    refine Keeps.bind (wipeStorage_finalizes id) fun _ => with_row fun row => ?_
    exact Keeps.forget (assign_effect fun self observed assignable found =>
      .wipeRecorded rfl assignable found)
  unfold finalizeSelfdestructed
  refine Keeps.bind (running_of_safe (Safe.when wipe)) fun _ => ?_
  refine Keeps.bind (running_of_safe (resetOrDelete_assigned id policy)) fun _ => ?_
  refine Keeps.bind (prepareAccountMutation_assigned id) fun _ => with_row fun row => ?_
  exact Keeps.forget (assign_row (fun _ => rfl) fun self assignable =>
    .settledDestruction rfl assignable)

theorem finalizeAccount_assigned (rules : FinalizationRules) (id : AccountId) :
    Keeps (assignments env .finalization) Running (finalizeAccount env rules id) fun _ _ => True := by
  unfold finalizeAccount
  refine Keeps.bind (running_of_safe (accountRow_looks id).safe) fun row => ?_
  split
  · exact Keeps.forget (Keeps.pure _)
  · split
    · refine Keeps.bind (prepareAccountMutation_assigned id) fun _ => with_row fun row => ?_
      exact Keeps.forget (assign_row (fun _ => rfl) fun self assignable =>
        .settledCreation rfl assignable)
    · exact finalizeSelfdestructed_assigned id _

theorem finalizeAccounts_assigned (rules : FinalizationRules) (ids : List AccountId) :
    Keeps (assignments env .finalization) Running (Action.forEach (finalizeAccount env rules) ids)
      fun _ => Running := by
  induction ids with
  | nil => exact (Keeps.pure ()).weaken fun _ _ holds => holds.2
  | cons id ids ih =>
      refine Keeps.bind ?_ fun _ => ih
      exact (keeps_run (finalizeAccount_assigned rules id)).imp (fun _ running => ⟨running, running⟩)
        fun _ _ holds => holds.1

/-! ## Calls -/

/-- The calls that warm, that write transient storage, or that work under a checkpoint of their
own. -/
def Op.Plain : Op → Prop
  | .accessAccount _ => False
  | .warmAccount _ => False
  | .warmStorage _ _ => False
  | .accessStorage _ _ => False
  | .loadStorage _ _ => False
  | .storeStorage _ _ _ => False
  | .setTransientStorage _ _ _ => False
  | .clearTransientStorage => False
  | .finalizeLifecycle _ => False
  | _ => True

/-- Every other call is a sequence of assignments. -/
theorem Op.run_assigned (op : Op) (plain : op.Plain) :
    Safe (assignments env op.licence) (op.run env) := by
  cases op with
  | getAccount address => exact (readAccount_assigned address _).discard
  | accountExists address =>
      exact Safe.discard (Safe.bind (readAccount_assigned address _) fun _ => Safe.pure _)
  | getBalance address => exact (getBalance_assigned address).discard
  | getNonce address =>
      exact Safe.discard (Safe.bind (readAccount_assigned address _) fun _ => Safe.pure _)
  | getCodeHash address =>
      exact Safe.discard (Safe.bind (readAccount_assigned address _) fun _ => Safe.pure _)
  | accountHasCode address =>
      exact Safe.discard (Safe.bind (readAccount_assigned address _) fun _ => Safe.pure _)
  | getCodeView address => exact (getCodeView_assigned address).discard
  | setBalance address balance => exact setBalance_assigned (by trivial) address balance
  | addBalance address value => exact addBalance_assigned (by trivial) address value
  | subtractBalance address value => exact (subtractBalance_assigned (by trivial) address value).discard
  | setNonce address nonce => exact setNonce_assigned (by trivial) address nonce
  | setCode address bytes => exact setCode_assigned (by trivial) address bytes
  | clearCode address => exact setCode_assigned (by trivial) address []
  | touchAccount address => exact touchAccount_assigned (by trivial) address
  | observeAccountAccess address =>
      exact Safe.bind (requireAccount_assigned address).safe fun id =>
        observeAccount_safe_assigned id _
  | getStorage address slot => exact (getStorage_assigned address slot).discard
  | setStorage address slot value => exact (setStorage_assigned (by trivial) address slot value).discard
  | getTransientStorage address slot =>
      exact Safe.discard (Safe.bind assertSession_running.safe fun _ => Safe.read _)
  | emitLog log => exact emitLog_assigned log
  | initializeContract address nonce => exact initializeContract_assigned address nonce
  | applySelfDestruct source beneficiary policy touch =>
      exact (applySelfDestruct_assigned (by trivial) source beneficiary policy touch).discard
  | clearLogs => exact clearLogs_assigned (by trivial)
  | _ => exact plain.elim

/-- The calls on transient storage, and the one that works under a checkpoint of its own. -/
def Op.Simple : Op → Prop
  | .setTransientStorage _ _ _ => False
  | .clearTransientStorage => False
  | .finalizeLifecycle _ => False
  | _ => True

/-- Every other call is a sequence of changes. -/
theorem Op.run_changes (op : Op) (simple : op.Simple) :
    Safe (changes env op.licence) (op.run env) := by
  cases op with
  | accessAccount address =>
      exact Safe.discard (Safe.bind (changes_of_assignments (requireAccount_assigned address)).safe
        fun id => Safe.bind (changes_of_assignments (observeAccount_safe_assigned id _)) fun _ =>
        Safe.bind (warmAccountId_changes id) fun _ => Safe.pure _)
  | warmAccount address => exact warmAccount_changes address
  | warmStorage address slot =>
      exact Safe.bind (warmStorageAddress_changes address slot) fun _ => Safe.pure _
  | accessStorage address slot =>
      refine Safe.discard (Safe.bind (warmStorageAddress_changes address slot) fun found => ?_)
      cases found <;> exact Safe.pure _
  | loadStorage address slot => exact (loadStorage_changes address slot).discard
  | storeStorage address slot value =>
      exact (storeStorage_changes (by trivial) address slot value).discard
  | setTransientStorage _ _ _ => exact simple.elim
  | finalizeLifecycle _ => exact simple.elim
  | clearTransientStorage => exact simple.elim
  | _ => exact changes_of_assignments (Op.run_assigned _ trivial)

end WorldState

end EvmZig.State
