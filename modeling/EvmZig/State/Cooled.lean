import EvmZig.State.WarmCalls
import EvmZig.Zig.Blind

/-!
# What an access changes

Forget which slots are warm.  The calls that find, observe, read and write a slot
are blind to what is forgotten, and an access changes nothing else.
-/

set_option autoImplicit false

namespace EvmZig.State

open Lib Zig

def StorageRow.cooled (row : StorageRow) : StorageRow := { row with warmTransaction := 0 }

def Entry.warmsSlot : Entry → Bool
  | .warmStorage _ => true
  | .deferredWarmStorage _ => true
  | _ => false

namespace WorldState

variable {env : Env} {start : Nat} {self after last left right : WorldState} {α β : Type}

/-- The state without the warmth of its slots, and without the count of its requests. -/
def cooled (self : WorldState) : WorldState :=
  { self with
    world := { self.world with storage := self.world.storage.mapRows fun _ => StorageRow.cooled }
    deferredWarmth := { self.deferredWarmth with storage := Table.empty }
    journal := self.journal.filter fun entry => !entry.warmsSlot
    requests := 0 }

/-- Runs that began before the request `start`. -/
def coolness (env : Env) (start : Nat) : Blindfold WorldState where
  forget := cooled
  ready self := start ≤ self.requests
  denied := ∃ asked, start ≤ asked ∧ env.grants asked = false

/-! ## Reading a cooled state -/

theorem storageRow_cooled (self : WorldState) (id : StorageId) :
    self.cooled.world.storage.row id = (self.world.storage.row id).map StorageRow.cooled := by
  simp only [cooled, Table.row, Table.mapRows, List.getElem?_map, Option.map_map]
  rfl

theorem findStorage_cooled (self : WorldState) (account : AccountId) (slot : U256) :
    self.cooled.findStorage account slot = self.findStorage account slot :=
  Table.find_mapRows _ _ _

theorem storageUndos_cooled (self : WorldState) :
    self.cooled.journal.storageUndos = self.journal.storageUndos := by
  simp only [cooled, Journal.storageUndos, List.filterMap_filter]
  congr 2
  funext entry
  cases entry <;> rfl

theorem cooled_updateAccount (self : WorldState) (id : AccountId) (update : AccountRow → AccountRow) :
    (self.updateAccount id update).cooled = self.cooled.updateAccount id update := by
  have same : self.cooled.world.accounts = self.world.accounts := rfl
  unfold updateAccount World.updateAccount
  rw [same]
  cases self.world.accounts.row id <;> rfl

theorem cooled_set (self : WorldState) (id : StorageId) (row : StorageRow) :
    (self.world.storage.set id row).mapRows (fun _ => StorageRow.cooled) =
      self.cooled.world.storage.set id row.cooled := by
  apply Table.eq_of_rows
  apply List.ext_getElem?
  intro index
  simp only [cooled, Table.mapRows, Table.set, List.getElem?_map, List.getElem?_modify]
  cases self.world.storage.rows[index]? with
  | none => rfl
  | some entry =>
      by_cases here : id = index
      · simp only [here, if_true, Option.map_eq_map, Option.map_some]
      · simp only [here, if_false, Option.map_eq_map, Option.map_some]

theorem cooled_updateStorage (self : WorldState) (id : StorageId) {update : StorageRow → StorageRow}
    (keeps : ∀ row, (update row).cooled = update row.cooled := by exact fun _ => rfl) :
    (self.updateStorage id update).cooled = self.cooled.updateStorage id update := by
  unfold updateStorage World.updateStorage
  rw [storageRow_cooled]
  cases held : self.world.storage.row id with
  | none => rfl
  | some row =>
      rw [Option.map_some]
      dsimp only
      rw [← keeps, ← cooled_set]
      rfl

/-- The mark of an access is forgotten. -/
theorem cooled_warmed (self : WorldState) (id : StorageId) (transaction : Generation) :
    (self.updateStorage id fun row => { row with warmTransaction := transaction }).cooled =
      self.cooled := by
  unfold updateStorage World.updateStorage
  cases held : self.world.storage.row id with
  | none => rfl
  | some row =>
      have same : self.cooled.world.storage.row id = some row.cooled := by
        rw [storageRow_cooled, held]
        rfl
      have marked := cooled_set self id { row with warmTransaction := transaction }
      have kept : self.cooled.world.storage.set id row.cooled = self.cooled.world.storage :=
        Table.set_row_self same
      exact congrArg (fun storage => self.cooled.withStorage storage) (marked.trans kept)

theorem cooled_assignStorage (self : WorldState) (id : StorageId)
    (firstDirty firstTransactionWrite : Bool) (value : U256) (incarnation : Incarnation) :
    (assignStorage id firstDirty firstTransactionWrite value incarnation self).cooled =
      assignStorage id firstDirty firstTransactionWrite value incarnation self.cooled :=
  congrArg (fun state => ({ state with
      dirtyStorage := if firstDirty then self.dirtyStorage ++ [id] else self.dirtyStorage
      changedStorage :=
        if firstTransactionWrite then self.changedStorage ++ [id] else self.changedStorage } :
      WorldState)) (cooled_updateStorage self id)

/-! ## Calls that do not see warmth -/

theorem request_blind (error : StateError) : Blind (coolness env start) (request env error) := by
  intro left right alike
  obtain ⟨same, leftReady, rightReady⟩ := alike
  have grown : (coolness env start).Alike { left with requests := left.requests + 1 }
      { right with requests := right.requests + 1 } :=
    ⟨same, Nat.le_succ_of_le leftReady, Nat.le_succ_of_le rightReady⟩
  unfold request
  dsimp only
  cases leftGrants : env.grants left.requests with
  | true =>
      cases rightGrants : env.grants right.requests with
      | true => exact ⟨rfl, grown⟩
      | false => exact ⟨_, rightReady, rightGrants⟩
  | false =>
      cases rightGrants : env.grants right.requests with
      | true => exact ⟨_, leftReady, leftGrants⟩
      | false => trivial

theorem reserve_blind : Blind (coolness env start) (reserve env) := request_blind _

/-- A lookup in a part that agrees as far as `see` tells. -/
theorem lookup_sees {body : Method α} (found : WorldState → Option α) {see : α → α}
    (looks : ∀ self, body self = match found self with
      | some value => .ok value self
      | none => .illegal)
    (reads : ∀ self, found self.cooled = (found self).map see) :
    Sees (coolness env start) see body := by
  intro left right alike
  have same : (found left).map see = (found right).map see := by
    rw [← reads, ← reads]
    exact congrArg found alike.forget
  rw [looks, looks]
  cases foundLeft : found left with
  | none =>
      rw [foundLeft] at same
      rw [Option.map_eq_none_iff.mp same.symm]
      trivial
  | some one =>
      rw [foundLeft] at same
      obtain ⟨two, foundRight, seen⟩ := Option.map_eq_some_iff.mp same.symm
      rw [foundRight]
      exact ⟨seen.symm, alike⟩

theorem accountRow_blind (id : AccountId) : Blind (coolness env start) (accountRow id) := by
  refine lookup_sees (·.world.accounts.row id) (fun self => ?_) fun _ => (congrFun Option.map_id _).symm
  unfold accountRow
  cases self.world.accounts.row id <;> rfl

theorem accountAddress_blind (id : AccountId) : Blind (coolness env start) (accountAddress id) := by
  refine lookup_sees (·.world.accounts.key id) (fun self => ?_) fun _ => (congrFun Option.map_id _).symm
  unfold accountAddress
  cases self.world.accounts.key id <;> rfl

theorem storageKey_blind (id : StorageId) : Blind (coolness env start) (storageKey id) := by
  refine lookup_sees (·.world.storage.key id) (fun self => ?_) fun self =>
    (Table.key_mapRows _ self.world.storage id).trans (congrFun Option.map_id _).symm
  unfold storageKey
  cases self.world.storage.key id <;> rfl

theorem storageRow_sees (id : StorageId) :
    Sees (coolness env start) StorageRow.cooled (storageRow id) := by
  refine lookup_sees (·.world.storage.row id) (fun self => ?_) fun self => storageRow_cooled self id
  unfold storageRow
  cases self.world.storage.row id <;> rfl

theorem assertMutable_blind : Blind (coolness env start) assertMutable :=
  Blind.bind (Blind.assert fun _ => rfl) fun _ => Blind.bind (Blind.assert fun _ => rfl) fun _ =>
    Blind.assert fun _ => rfl

theorem accountObservation_blind (id : AccountId) :
    Blind (coolness env start) (accountObservation id) := by
  refine Blind.bind (accountRow_blind id) fun row => Sees.bind Blind.get (fun _ => rfl) fun self => ?_
  split
  · exact Blind.pure _
  · exact Blind.illegal

theorem storageObservation_blind (id : StorageId) :
    Blind (coolness env start) (storageObservation id) := by
  refine Sees.bind (storageRow_sees id) (fun _ => rfl) fun row =>
    Sees.bind Blind.get (fun _ => rfl) fun self => ?_
  split
  · exact Blind.pure _
  · exact Blind.illegal

theorem observeAccount_blind (id : AccountId) (observation : AccountObservation) :
    Blind (coolness env start) (observeAccount env id observation) := by
  refine Blind.bind assertMutable_blind fun _ => Blind.bind (accountRow_blind id) fun row =>
    Sees.bind Blind.get (fun _ => rfl) fun self => ?_
  split
  · exact Blind.bind (accountObservation_blind id) fun _ =>
      Blind.modify (fun _ => rfl) fun _ ready => ready
  · refine Blind.bind reserve_blind fun _ => Blind.modify (fun self => ?_) fun _ ready => ready
    exact congrArg (fun state => ({ state with
        observedAccounts := self.observedAccounts ++ [{
          account := id
          original := row.current
          originalStorageIncarnation := row.storageIncarnation
          observation }] } : WorldState)) (cooled_updateAccount self id _)

theorem insertAccount_blind (address : Address) (current : Option Account) :
    Blind (coolness env start) (insertAccount address current) := by
  intro left right alike
  have same : left.world.accounts = right.world.accounts := congrArg (·.world.accounts) alike.forget
  unfold insertAccount
  split
  · rename_i held
    split
    · trivial
    · rename_i fresh
      rw [← same, held] at fresh
      cases fresh
  · rename_i fresh
    split
    · rename_i held
      rw [← same, fresh] at held
      cases held
    · refine ⟨congrArg Table.count same, ?_, alike.left, alike.right⟩
      have tables := congrArg (fun table : Table Address AccountRow => table.rows) same
      have admitted : left.world.accounts.admitRow address (.admitted current) fresh =
          right.world.accounts.admitRow address (.admitted current) (same ▸ fresh) :=
        Table.eq_of_rows (congrArg (fun rows => rows ++ [(address, AccountRow.admitted current)]) tables)
      exact congrArg₂ (fun (state : WorldState) accounts => state.withAccounts accounts)
        alike.forget admitted

theorem insertStorage_blind (key : StorageKey) (value : U256) :
    Blind (coolness env start) (insertStorage key value) := by
  intro left right alike
  have same : (left.world.storage.mapRows fun _ => StorageRow.cooled) =
      right.world.storage.mapRows fun _ => StorageRow.cooled :=
    congrArg (·.world.storage) alike.forget
  have finds : left.world.storage.find key = right.world.storage.find key := by
    have found := congrArg (fun table : Table StorageKey StorageRow => table.find key) same
    simpa only [Table.find_mapRows] using found
  unfold insertStorage
  split
  · rename_i held
    split
    · trivial
    · rename_i fresh
      rw [← finds, held] at fresh
      cases fresh
  · rename_i fresh
    split
    · rename_i held
      rw [← finds, fresh] at held
      cases held
    · rename_i vacant
      have rows := congrArg (fun table : Table StorageKey StorageRow => table.rows) same
      refine ⟨?_, ?_, alike.left, alike.right⟩
      · have lengths := congrArg List.length rows
        simp only [Table.mapRows, List.length_map] at lengths
        exact lengths
      · have admitted : ∀ (table : Table StorageKey StorageRow) (fresh : table.find key = none),
            ((table.admitRow key { current := value } fresh).mapRows fun _ => StorageRow.cooled).rows =
              (table.mapRows fun _ => StorageRow.cooled).rows ++ [(key, { current := value })] :=
          fun table fresh => List.map_append
        refine congrArg₂ (fun (state : WorldState) storage => state.withStorage storage)
          alike.forget (Table.eq_of_rows ?_)
        exact (admitted _ fresh).trans ((congrArg (· ++ _) rows).trans (admitted _ vacant).symm)

theorem requireAccount_blind (address : Address) :
    Blind (coolness env start) (requireAccount env address) := by
  have admits : Blind (coolness env start) (admitAccount env address) := by
    unfold admitAccount
    split
    · exact Blind.bind (request_blind _) fun _ => Blind.bind reserve_blind fun _ =>
        insertAccount_blind _ _
    · exact Blind.bind reserve_blind fun _ => insertAccount_blind _ _
  have resolves : Blind (coolness env start) (resolveAccount env address .requiredObserved) := by
    refine Sees.bind Blind.get (fun _ => rfl) fun self => ?_
    split
    · exact Blind.pure _
    · dsimp only
      split
      · exact admits.map _
      · exact Blind.fail _
  refine resolves.bind fun found => ?_
  split
  · exact Blind.pure _
  · exact Blind.illegal

theorem requireStorage_blind (address : Address) (slot : U256) :
    Blind (coolness env start) (requireStorage env address slot) := by
  have admits : ∀ key, Blind (coolness env start) (admitStorage env key) := by
    intro key
    unfold admitStorage
    split
    · exact Blind.bind (accountAddress_blind _) fun _ => Blind.bind (request_blind _) fun _ =>
        Blind.bind reserve_blind fun _ => insertStorage_blind _ _
    · exact Blind.bind reserve_blind fun _ => insertStorage_blind _ _
  have resolves : ∀ account,
      Blind (coolness env start) (resolveStorage env account slot .requiredObserved) := by
    intro account
    refine Sees.bind Blind.get (fun self => ?_) fun self => ?_
    · dsimp only [coolness]
      rw [findStorage_cooled]
    · split
      · exact Blind.pure _
      · dsimp only
        split
        · exact (admits _).map _
        · exact Blind.fail _
  refine Blind.bind (requireAccount_blind address) fun account =>
    Blind.bind (resolves account) fun found => ?_
  split
  · exact Blind.pure _
  · exact Blind.illegal

/-! ## Reading and writing the slot -/

theorem resolvedValue_blind (resolved : ResolvedStorage) :
    Blind (coolness env start) (resolvedValue resolved) :=
  Blind.bind (accountRow_blind _) fun _ => Sees.bind (storageRow_sees _) (fun _ => rfl) fun _ =>
    Blind.pure _

theorem acceptedStorageValue_blind (id : StorageId) :
    Blind (coolness env start) (acceptedStorageValue id) := by
  refine Sees.bind Blind.get (fun _ => rfl) fun self => ?_
  split
  · exact Blind.bind (storageKey_blind id) fun key => resolvedValue_blind _
  · refine Blind.bind (storageKey_blind id) fun key => ?_
    have incarnation : Blind (coolness env start) (incarnationBeforeAttempt key.account) := by
      refine Blind.bind (accountRow_blind _) fun account =>
        Sees.bind Blind.get (fun _ => rfl) fun _ => ?_
      split
      · exact (accountObservation_blind _).map _
      · exact Blind.pure _
    have before : ∀ row, Blind (coolness env start) (storageBeforeAttempt row) := by
      intro row
      refine Sees.bind Blind.get (fun self => ?_) fun self => ?_
      · rw [← storageUndos_cooled self]
        rfl
      · split
        · split
          · exact Blind.pure _
          · exact Blind.illegal
        · exact Blind.pure _
    exact incarnation.bind fun _ => Sees.bind (storageRow_sees id) (fun _ => rfl) fun row =>
      (before row).bind fun _ => Blind.pure _

theorem observeStorage_blind (resolved : ResolvedStorage) (observation : StorageObservation) :
    Blind (coolness env start) (observeStorage env resolved observation) := by
  refine Blind.bind assertMutable_blind fun _ => Sees.bind (storageRow_sees _) (fun _ => rfl) fun row =>
    Sees.bind Blind.get (fun _ => rfl) fun self => ?_
  split
  · exact Blind.bind (storageObservation_blind _) fun _ =>
      Blind.modify (fun _ => rfl) fun _ ready => ready
  · refine Blind.bind reserve_blind fun _ => Blind.bind (acceptedStorageValue_blind _) fun original =>
      Blind.modify (fun self => ?_) fun _ ready => ready
    have updated := @cooled_updateStorage self resolved.storage (fun row =>
      { row with observation := ⟨self.lifetime.transaction, self.observedStorage.length⟩ })
      fun _ => rfl
    exact congrArg (fun state => ({ state with
        observedStorage := self.observedStorage ++
          [{ storage := resolved.storage, original, observation }] } : WorldState)) updated

theorem readResolvedStorage_blind (resolved : ResolvedStorage) :
    Blind (coolness env start) (readResolvedStorage env resolved) :=
  Blind.bind (observeStorage_blind _ _) fun _ => resolvedValue_blind _

theorem executionOriginal_blind (resolved : ResolvedStorage) (current : U256) :
    Blind (coolness env start) (executionOriginal resolved current) := by
  refine Blind.bind (accountRow_blind _) fun account => ?_
  split
  · exact Blind.pure _
  · refine Sees.bind (storageRow_sees _) (fun _ => rfl) fun row =>
      Sees.bind Blind.get (fun _ => rfl) fun self => ?_
    split
    · exact Blind.bind (Blind.assert fun _ => rfl) fun _ => Blind.bind
        (Blind.modify (fun self => cooled_updateStorage self resolved.storage)
          fun _ ready => ready) fun _ => Blind.pure _
    · exact Blind.pure _

theorem appendStorageUndo_blind (id : StorageId) :
    Blind (coolness env start) (appendStorageUndo id) := by
  refine Sees.bind (storageRow_sees id) (fun _ => rfl) fun row =>
    Blind.bind (storageObservation_blind id) fun observed =>
      Blind.modify (fun self => ?_) fun _ ready => ready
  rw [← storageUndos_cooled self]
  exact cooled_updateStorage (self.push _) id

theorem writeResolvedStorage_blind (resolved : ResolvedStorage) (value : U256) :
    Blind (coolness env start) (writeResolvedStorage env resolved value) := by
  have updates : ∀ id update, Blind (coolness env start) (updateStorageEffect id update) := by
    intro id update
    exact Sees.bind (storageRow_sees id) (fun _ => rfl) fun row =>
      Blind.bind (storageObservation_blind id) fun _ => Blind.modify (fun _ => rfl) fun _ ready => ready
  refine Blind.bind (accountRow_blind _) fun account => Sees.bind (storageRow_sees _) (fun _ => rfl)
    fun row =>
    Blind.bind (Blind.assert fun _ => rfl) fun _ => Sees.bind Blind.get (fun _ => rfl) fun self => ?_
  refine Blind.bind reserve_blind.when fun _ => Blind.bind reserve_blind.when fun _ =>
    Blind.bind reserve_blind.when fun _ => Blind.bind reserve_blind.when fun _ =>
    Blind.bind (appendStorageUndo_blind _).when fun _ =>
    Blind.bind (Blind.modify (fun self => ?_) fun self ready => ?_) fun _ =>
    Blind.bind (Blind.modify (fun self => ?_) fun _ ready => ready) fun _ => updates _ _
  · unfold markStorageDirty
    split
    · exact cooled_updateAccount (self.push _) _ _
    · exact cooled_updateAccount self _ _
  · unfold markStorageDirty
    split <;> exact ready
  · exact cooled_assignStorage self _ _ _ _ _

theorem setResolvedStorage_blind (resolved : ResolvedStorage) (value : U256) :
    Blind (coolness env start) (setResolvedStorage env resolved value) := by
  refine Blind.bind (observeStorage_blind _ _) fun _ => Blind.bind (resolvedValue_blind _) fun current =>
    Blind.bind (executionOriginal_blind _ _) fun original => ?_
  split
  · exact Blind.pure _
  · exact Blind.bind (writeResolvedStorage_blind _ _) fun _ => Blind.pure _

/-! ## Accesses -/

section Accesses

variable {origin : WorldState}

/-- A run that changes only what is forgotten, and stops only where a request is denied. -/
def Silent (env : Env) (start : Nat) (origin : WorldState) : Outcome WorldState StateError α → Prop
  | .ok _ after => (coolness env start).Alike after origin
  | _ => (coolness env start).denied

theorem Silent.returns {outcome : Outcome WorldState StateError α}
    (silent : Silent env start origin outcome) (granted : ¬(coolness env start).denied) :
    ∃ value after, outcome = .ok value after := by
  cases outcome with
  | ok value after => exact ⟨value, after, rfl⟩
  | fail error after => exact (granted silent).elim
  | illegal => exact (granted silent).elim

theorem Silent.bind {body : Method α} {next : α → Method β}
    (first : Silent env start origin (body self))
    (rest : ∀ value after, body self = .ok value after → (coolness env start).Alike after origin →
      Silent env start origin (next value after)) :
    Silent env start origin ((body >>= next) self) := by
  rw [Action.bind_run]
  cases ran : body self with
  | ok value after =>
      rw [ran] at first
      exact rest value after ran first
  | fail error after =>
      rw [ran] at first
      exact first
  | illegal =>
      rw [ran] at first
      exact first

theorem Silent.map {body : Method α} {transform : α → β}
    (silent : Silent env start origin (body self)) :
    Silent env start origin ((transform <$> body) self) := by
  rw [← bind_pure_comp]
  exact silent.bind fun _ _ _ alike => alike

theorem reserve_silent (alike : (coolness env start).Alike self origin) :
    Silent env start origin (reserve env self) := by
  obtain ⟨same, ready, origin⟩ := alike
  unfold reserve request
  dsimp only
  cases grants : env.grants self.requests with
  | true => exact ⟨same, Nat.le_succ_of_le ready, origin⟩
  | false => exact ⟨_, ready, grants⟩

/-- What both paths of a storage instruction assert of the state. -/
structure Executing (state : WorldState) : Prop where
  running : state.transactionActive = true
  session : state.SessionActive
  unsealed : state.sealed = false
  isOpen : state.attemptOpen = true

instance (state : WorldState) : Decidable (Executing state) :=
  decidable_of_iff (state.transactionActive = true ∧ state.SessionActive ∧ state.sealed = false ∧
    state.attemptOpen = true) ⟨fun ⟨running, session, unsealed, isOpen⟩ =>
      ⟨running, session, unsealed, isOpen⟩, fun executing =>
      ⟨executing.running, executing.session, executing.unsealed, executing.isOpen⟩⟩

theorem assertSession_executing (executing : Executing self) : assertSession self = .ok () self := by
  simp only [assertSession, Action.bind_run, Action.assert, if_pos executing.running,
    if_pos executing.session]

theorem warmStorageId_silent {id : StorageId} {place : Address × U256}
    (executing : Executing self) (here : self.slotOf id = some place)
    (alike : (coolness env start).Alike self origin) :
    Silent env start origin (warmStorageId env id self) := by
  obtain ⟨account, key, owner⟩ := slotOf_eq_some.mp here
  obtain ⟨row, held⟩ := Table.row_eq_some_of_key key
  have row : storageRow id self = .ok row self := by rw [storageRow, held]
  have key : storageKey id self = .ok ⟨account, place.2⟩ self := by rw [storageKey, key]
  have owner : accountAddress account self = .ok place.1 self := by rw [accountAddress, owner]
  unfold warmStorageId
  rw [Action.bind_run, assertSession_executing executing]
  dsimp only
  rw [Action.bind_run, row]
  dsimp only
  rw [Action.bind_run, Action.get_run]
  dsimp only
  split
  · exact alike
  · rw [Action.bind_run, key]
    dsimp only
    rw [Action.bind_run, owner]
    dsimp only
    refine (reserve_silent alike).bind fun _ after _ alike => ?_
    exact ⟨(cooled_warmed (after.push _) id _).trans alike.forget, alike.left, alike.right⟩

theorem deferStorageWarm_silent {address : Address} {slot : U256} (executing : Executing self)
    (alike : (coolness env start).Alike self origin) :
    Silent env start origin (deferStorageWarm env address slot self) := by
  unfold deferStorageWarm
  rw [Action.bind_run, assertSession_executing executing]
  dsimp only
  rw [Action.bind_run, Action.get_run]
  dsimp only
  split
  · exact alike
  · refine (reserve_silent alike).bind fun _ first _ alike => ?_
    refine (reserve_silent alike).bind fun _ second _ alike => ?_
    obtain ⟨entry, found⟩ :=
      Table.find_put_same second.deferredWarmth.storage { address, slot } true
    rw [Action.bind_run, Action.modify_run]
    dsimp only
    rw [Action.bind_run, Action.get_run]
    dsimp only
    rw [found, Action.bind_run, Action.liftM_some]
    dsimp only
    rw [Action.bind_run, Action.modify_run]
    exact ⟨alike.forget, alike.left, alike.right⟩

/-- An access returns, and only changes what is warm. -/
theorem accessStorage_silent (executing : Executing self) (address : Address) (slot : U256) :
    Silent env self.requests self (accessStorage env address slot self) := by
  have alike : (coolness env self.requests).Alike self self := ⟨rfl, Nat.le_refl _, Nat.le_refl _⟩
  rw [accessStorage_eq]
  refine Silent.bind ?_ fun _ _ _ alike => alike
  unfold warmStorageAddress
  rw [Action.bind_run, resolveAccount_optional]
  dsimp only
  cases found : self.findAccount address with
  | none =>
      dsimp only
      split
      · exact (deferStorageWarm_silent executing alike).map
      · exact alike
  | some account =>
      dsimp only
      have owner := Table.find_eq_some.mp found
      rw [Action.bind_run, resolveStorage_optional]
      dsimp only
      cases stored : self.findStorage account slot with
      | some id =>
          have here : self.slotOf id = some (address, slot) :=
            slotOf_eq_some.mpr ⟨account, Table.find_eq_some.mp stored, owner⟩
          exact (warmStorageId_silent executing here alike).map
      | none =>
          dsimp only
          split
          · rw [Action.bind_run, accountAddress, owner]
            exact (deferStorageWarm_silent executing alike).map
          · exact alike

/-! ## The two orders -/

/-- Find the slot, observe its account and read the slot or write it. -/
def reach (env : Env) (address : Address) (slot : U256) (body : ResolvedStorage → Method α) :
    Method α := do
  let resolved ← requireStorage env address slot
  observeAccount env resolved.account { accessed := true }
  body resolved

theorem Executing.same (executing : Executing self) (same : SameControl self after) :
    Executing after where
  running := same.transactionActive.trans executing.running
  session := by
    rw [SessionActive, same.scopeDepth]
    exact executing.session
  unsealed := same.sealed.trans executing.unsealed
  isOpen := same.attemptOpen.trans executing.isOpen

/-- An access on the way to the slot makes no difference to what is read or written there. -/
theorem reach_meets {body : ResolvedStorage → Method α}
    (blind : ∀ resolved, Blind (coolness env start) (body resolved)) (executing : Executing left)
    (alike : (coolness env start).Alike left right) (address : Address) (slot : U256) :
    (coolness env start).Meets (fun (one : α × AccessStatus) two => one.1 = two)
      (reach env address slot (fun resolved => do
        let accessStatus ← accessResolvedStorage env resolved
        let value ← body resolved
        return (value, accessStatus)) left)
      (reach env address slot body right) := by
  unfold reach
  refine (requireStorage_blind address slot left right alike).bind
    fun resolved _ first first' ran same alike => ?_
  obtain rfl : resolved = _ := same
  have required := @requireStorage_assigned env .call address slot left trivial trivial
  rw [ran] at required
  obtain ⟨-, steps, resolves⟩ := required
  refine (observeAccount_blind _ _ first first' alike).bind fun _ _ second second' ran _ alike => ?_
  have observed := @resolves_of_safe env Unit resolved address slot _
    (observeAccount_safe_assigned resolved.account { accessed := true }) first trivial resolves
  rw [ran] at observed
  obtain ⟨-, steps', resolves⟩ := observed
  have within := (executing.same (Assigned.control steps)).same (Assigned.control steps')
  have here : second.slotOf resolved.storage = some (address, slot) :=
    slotOf_eq_some.mpr ⟨resolved.account, resolves.2, resolves.1⟩
  have silent : Silent env start second' (accessResolvedStorage env resolved second) :=
    (warmStorageId_silent within here alike).bind fun _ _ _ alike => alike
  beta_reduce
  rw [Action.bind_run]
  cases accessed : accessResolvedStorage env resolved second with
  | ok status third =>
      rw [accessed] at silent
      have returned : body resolved second' = (body resolved >>= pure) second' := by rw [bind_pure]
      rw [returned]
      refine (blind resolved third second' silent).bind fun one two after last _ same alike => ?_
      exact ⟨same, alike⟩
  | fail error third =>
      rw [accessed] at silent
      dsimp only
      cases body resolved second' <;> first | exact silent | trivial
  | illegal =>
      rw [accessed] at silent
      dsimp only
      cases body resolved second' <;> first | exact silent | trivial

theorem loadStorage_reach (address : Address) (slot : U256) :
    loadStorage env address slot = reach env address slot fun resolved => do
      let accessStatus ← accessResolvedStorage env resolved
      let value ← readResolvedStorage env resolved
      return (value, accessStatus) := rfl

theorem storeStorage_reach (address : Address) (slot value : U256) :
    storeStorage env address slot value = reach env address slot fun resolved => do
      let accessStatus ← accessResolvedStorage env resolved
      let storageStatus ← setResolvedStorage env resolved value
      return (storageStatus, accessStatus) := rfl

theorem setStorage_reach (address : Address) (slot value : U256) :
    setStorage env address slot value = reach env address slot fun resolved =>
      setResolvedStorage env resolved value := rfl

/-- Inside an attempt every read is observed. -/
theorem getStorage_reach (executing : Executing self) (address : Address) (slot : U256) :
    getStorage env address slot self = reach env address slot (readResolvedStorage env) self := by
  unfold getStorage reach
  rw [Action.bind_run, Action.bind_run]
  cases ran : requireStorage env address slot self with
  | fail error after => rfl
  | illegal => rfl
  | ok resolved after =>
      have required := @requireStorage_assigned env .call address slot self trivial trivial
      rw [ran] at required
      obtain ⟨-, steps, -⟩ := required
      have within := executing.same (Assigned.control steps)
      have opened : isAttemptOpen after = .ok true after := by
        simp only [isAttemptOpen, Action.bind_run, Action.assert, within.running, within.unsealed,
          within.isOpen, Action.read_run, Bool.not_false, Bool.and_true, if_true]
      dsimp only
      rw [Action.bind_run, opened]
      rfl

end Accesses

end WorldState

end EvmZig.State
