import EvmZig.State.Books
import EvmZig.State.FinalOutcome

/-!
# Account effects over an attempt

An observation record says which fields of its account the attempt wrote.  A
field that differs from the value before the attempt has its flag set, or the
account is recorded as deleted.  One write takes that record back: deleting an
account that is already absent.
-/

set_option autoImplicit false

namespace EvmZig.State

open Lib Zig

variable {update : AccountEffect → AccountEffect} {pre : WorldState → Prop} {held : AccountFacts}

/-! ## What an effect shows -/

/-- Every field that differs has its flag; a missing account counts as zero. -/
structure Covers (start current : Option Account) (effect : AccountEffect) : Prop where
  balance : (start.getD {}).balance ≠ (current.getD {}).balance → effect.balanceWritten = true
  nonce : (start.getD {}).nonce ≠ (current.getD {}).nonce → effect.nonceWritten = true
  code : (start.getD {}).codeHash ≠ (current.getD {}).codeHash → effect.codeWritten = true

/-- The effect covers the account, which is absent only if it always was, or says it is deleted. -/
def Truthful (start current : Option Account) (effect : AccountEffect) : Prop :=
  effect.accountDeleted = true ∨ Covers start current effect ∧ (current = none → start = none)

namespace Truthful

variable {start previous value : Option Account} {effect : AccountEffect}

theorem unchanged (start : Option Account) : Truthful start start {} :=
  .inr ⟨⟨fun differs => absurd rfl differs, fun differs => absurd rfl differs,
    fun differs => absurd rfl differs⟩, fun absent => absent⟩

/-- Only a deletion of an absent account that existed before loses anything. -/
theorem recorded (truthful : Truthful start previous effect)
    (spares : value = none → previous = none → start = none) :
    Truthful start value (WorldState.recordAccountEffect previous value effect) := by
  cases value with
  | none =>
      cases previous with
      | some old => exact .inl rfl
      | none =>
          obtain rfl := spares rfl rfl
          exact .inr ⟨⟨fun differs => absurd rfl differs, fun differs => absurd rfl differs,
            fun differs => absurd rfl differs⟩, fun _ => rfl⟩
  | some account =>
      cases previous with
      | some old =>
          rcases truthful with deleted | ⟨covers, -⟩
          · exact .inl deleted
          · refine .inr ⟨⟨fun differs => ?_, fun differs => ?_, fun differs => ?_⟩, fun absent =>
              nomatch absent⟩
            · by_cases same : old.balance = account.balance
              · have before := covers.balance (same ▸ differs)
                simp [WorldState.recordAccountEffect, before]
              · simp [WorldState.recordAccountEffect, same]
            · by_cases same : old.nonce = account.nonce
              · have before := covers.nonce (same ▸ differs)
                simp [WorldState.recordAccountEffect, before]
              · simp [WorldState.recordAccountEffect, same]
            · by_cases same : old.codeHash = account.codeHash
              · have before := covers.code (same ▸ differs)
                simp [WorldState.recordAccountEffect, before]
              · simp [WorldState.recordAccountEffect, same]
      | none =>
          rcases truthful with deleted | ⟨-, missing⟩
          · exact .inl deleted
          · obtain rfl := missing rfl
            refine .inr ⟨⟨fun differs => ?_, fun differs => ?_, fun differs => ?_⟩, fun absent =>
              nomatch absent⟩
            · exact decide_eq_true (Ne.symm differs)
            · exact decide_eq_true (Ne.symm differs)
            · exact decide_eq_true (Ne.symm differs)

/-- An absent account that is touched has no field that differs. -/
theorem touched (truthful : Truthful start previous effect) :
    Truthful start (some (previous.getD {})) effect := by
  rcases truthful with deleted | ⟨⟨balance, nonce, code⟩, -⟩
  · exact .inl deleted
  · exact .inr ⟨⟨balance, nonce, code⟩, fun absent => nomatch absent⟩

theorem marked (truthful : Truthful start previous effect)
    (balance : (update effect).balanceWritten = effect.balanceWritten)
    (nonce : (update effect).nonceWritten = effect.nonceWritten)
    (code : (update effect).codeWritten = effect.codeWritten)
    (deleted : (update effect).accountDeleted = effect.accountDeleted) :
    Truthful start previous (update effect) := by
  rcases truthful with gone | ⟨covers, missing⟩
  · exact .inl (deleted.trans gone)
  · exact .inr ⟨⟨fun differs => balance.trans (covers.balance differs),
      fun differs => nonce.trans (covers.nonce differs),
      fun differs => code.trans (covers.code differs)⟩, missing⟩

/-- What a call writes, it records truthfully. -/
theorem written {licence : Licence} (truthful : Truthful start previous effect)
    (writes : WorldState.Writes licence previous value update) (ordinary : licence ≠ .finalization) :
    Truthful start value (update effect) := by
  cases writes with
  | wrote _ allowed =>
      refine truthful.recorded fun absent _ => ?_
      subst absent
      rcases allowed with some | final
      · cases some
      · exact absurd final ordinary
  | touched => exact truthful.touched
  | marked balance nonce code deleted =>
      exact truthful.marked (balance effect) (nonce effect) (code effect) (deleted effect)

end Truthful

namespace WorldState

variable {env : Env} {licence : Licence} {self after : WorldState} {start : Address → Option Account}

/-! ## Records and entries -/

/-- Every record, and every entry that can be undone, is truthful about its account. -/
structure Audited (env : Env) (start : Address → Option Account) (state : WorldState) : Prop where
  books : Books env start state
  shown : ∀ (index : Nat) (record : AccountRecord) (row : AccountRow), state.records[index]? =
    some record →
    state.world.accounts.row record.account = some row →
    Truthful record.original row.current record.effect
  kept : ∀ (undo : AccountUndo) (address : Address), Entry.account undo ∈ state.journal →
    state.world.accounts.key undo.account = some address →
    Truthful (start address) undo.current undo.effect

namespace Audited

/-- The same accounts, records and entries. -/
theorem same (audited : Audited env start self) (accounts : after.world.accounts = self.world.accounts)
    (records : after.records = self.records)
    (journal : ∀ undo, Entry.account undo ∈ after.journal → Entry.account undo ∈ self.journal)
    (transaction : after.lifetime.transaction = self.lifetime.transaction) :
    Audited env start after := by
  refine ⟨audited.books.same accounts records journal transaction, fun index record row found held => ?_,
    fun undo address member key => ?_⟩
  · rw [records] at found
    rw [accounts] at held
    exact audited.shown index record row found held
  · rw [accounts] at key
    exact audited.kept undo address (journal undo member) key

/-- The account of a record or an entry shows the face it had. -/
theorem sameFaces (audited : Audited env start self) (quiet : SameFaces env self after)
    (transaction : after.lifetime.transaction = self.lifetime.transaction) :
    Audited env start after := by
  refine ⟨audited.books.sameFaces quiet transaction, fun index record row found held => ?_,
    fun undo address member key => ?_⟩
  · rw [quiet.records] at found
    obtain ⟨old, -, oldHeld, -, -, -⟩ := audited.books.record index record found
    obtain ⟨row', held', shows⟩ := quiet.kept _ old oldHeld
    cases held.symm.trans held'
    have current : row.current = old.current := congrArg AccountFace.current shows
    rw [current]
    exact audited.shown index record old found oldHeld
  · obtain ⟨newer, journal, others⟩ := quiet.journal
    rw [journal] at member
    have older := (List.mem_append.mp member).resolve_left (others undo)
    obtain ⟨old, place, -, placeKey, -, -⟩ := audited.books.entry undo older
    cases (quiet.key _ _ placeKey).symm.trans key
    exact audited.kept undo address older placeKey

/-- One row shows another face, and the records change beside it. -/
theorem recast {id : AccountId} {row : AccountRow} {face : AccountFace}
    (audited : Audited env start self) (books : Books env start after)
    (recast : Recast self after id row face)
    (records : ∀ (index : Nat) (record : AccountRecord), after.records[index]? = some record →
      record.account ≠ id → self.records[index]? = some record)
    (here : ∀ (index : Nat) (record : AccountRecord), after.records[index]? = some record →
      record.account = id → Truthful record.original face.current record.effect)
    (entry : ∀ undo, Entry.account undo ∈ after.journal → Entry.account undo ∈ self.journal ∨
      ∀ address, self.world.accounts.key undo.account = some address →
        Truthful (start address) undo.current undo.effect) : Audited env start after := by
  refine ⟨books, fun index record row' found held => ?_, fun undo address member key => ?_⟩
  · rcases recast.row_cases held with ⟨same, shows⟩ | ⟨differs, before⟩
    · have current : row'.current = face.current := congrArg AccountFace.current shows
      rw [current]
      exact here index record found same
    · exact audited.shown index record row' (records index record found differs) before
  · rw [recast.key_eq] at key
    rcases entry undo member with older | fresh
    · exact audited.kept undo address older key
    · exact fresh address key

/-- A write whose record stays truthful. -/
theorem wrote {id : AccountId} {row : AccountRow} {value : Option Account}
    {update : AccountEffect → AccountEffect} (audited : Audited env start self)
    (recast : Recast self after id row { row.face with current := value })
    (ready : Ready row self.lifetime) (writes : Writes licence row.current value update)
    (records : after.records =
      self.records.modify row.observation.index (AccountRecord.affected update))
    (changed : after.changedAccounts = self.changedAccounts) (journal : after.journal = self.journal)
    (transaction : after.lifetime.transaction = self.lifetime.transaction)
    (keeps : ∀ address effect, self.world.accounts.key id = some address →
      Truthful (start address) row.current effect → Truthful (start address) value (update effect)) :
    Audited env start after := by
  have books := audited.books.booked (.wrote recast ready writes records changed journal) transaction
  refine audited.recast books recast (fun index record found differs => ?_)
    (fun index record found same => ?_) fun undo member => .inl (journal ▸ member)
  · rw [records] at found
    obtain ⟨old, before, rfl⟩ := affected_of_modify found
    split at differs
    · rename_i here
      obtain ⟨other, otherFound, account⟩ := audited.books.handle id row recast.held ready.observed
      rw [← here, before] at otherFound
      cases otherFound
      exact absurd account differs
    · rename_i elsewhere
      rw [if_neg elsewhere]
      exact before
  · rw [records] at found
    obtain ⟨old, before, rfl⟩ := affected_of_modify found
    have account : old.account = id := by
      split at same <;> exact same
    have held : self.world.accounts.row old.account = some row := account ▸ recast.held
    have position := audited.books.record_of_row before held
    have here : index = row.observation.index := (congrArg ObservationHandle.index position).symm
    obtain ⟨-, address, -, key, -, original⟩ := audited.books.record index old before
    have truthful := audited.shown index old row before held
    rw [original] at truthful
    rw [if_pos here]
    change Truthful old.original value (update old.effect)
    rw [original]
    exact keeps address old.effect (account ▸ key) truthful

/-- A change that deletes nothing. -/
theorem booked (audited : Audited env start self) (ordinary : licence ≠ .finalization)
    (booked : Booked env licence self after)
    (transaction : after.lifetime.transaction = self.lifetime.transaction) :
    Audited env start after := by
  have books := audited.books.booked booked transaction
  cases booked with
  | aside quiet => exact audited.sameFaces quiet transaction
  | observed recast first records changed journal =>
      rename_i id row
      have fresh : ∀ (index : Nat) (record : AccountRecord), after.records[index]? = some record →
          self.records[index]? = some record ∨ record = ⟨id, row.current, {}⟩ := by
        intro index record found
        rw [records] at found
        rw [List.getElem?_append] at found
        split at found
        · exact .inl found
        · rw [List.getElem?_singleton] at found
          split at found
          · exact .inr (Option.some.inj found).symm
          · cases found
      refine audited.recast books recast (fun index record found differs => ?_)
        (fun index record found same => ?_) fun undo member => .inl (journal ▸ member)
      · exact (fresh index record found).resolve_right fun last => differs (last ▸ rfl)
      · rcases fresh index record found with older | rfl
        · exact audited.shown index record row older (same ▸ recast.held)
        · exact .unchanged row.current
  | journaled recast current found records changed journal =>
      rename_i id row record
      obtain ⟨address, key⟩ := Table.key_eq_some_of_row recast.held
      have account : record.account = id := by
        obtain ⟨other, otherFound, account⟩ := audited.books.handle id row recast.held current
        cases found.symm.trans otherFound
        exact account
      obtain ⟨-, place, -, placeKey, -, original⟩ := audited.books.record _ record found
      have truthful := audited.shown _ record row found (account ▸ recast.held)
      refine audited.recast books recast (fun index other found _ => records ▸ found)
        (fun index other otherFound same => ?_) fun undo member => ?_
      · rw [records] at otherFound
        exact audited.shown index other row otherFound (same ▸ recast.held)
      · rw [journal] at member
        rcases List.mem_cons.mp member with same | older
        · cases same
          refine .inr fun other otherKey => ?_
          have here : self.world.accounts.key id = some other := otherKey
          rw [account] at placeKey
          cases placeKey.symm.trans here
          rw [original] at truthful
          exact truthful
        · exact .inl older
  | dirtied recast current covered records changed journal =>
      refine audited.recast books recast (fun index other found _ => records ▸ found)
        (fun index other otherFound same => ?_) fun undo member => .inl (journal ▸ member)
      rw [records] at otherFound
      exact audited.shown index other _ otherFound (same ▸ recast.held)
  | wrote recast ready writes records changed journal =>
      exact audited.wrote recast ready writes records changed journal transaction
        fun address effect key truthful => truthful.written writes ordinary

/-- What an entry gives back is truthful. -/
theorem unbooked (audited : Audited env start self) {entry : Entry}
    (unbooked : Unbooked env self after entry) (books : Books env start after)
    (journal : after.journal = self.journal)
    (kept : ∀ undo address, entry = .account undo → self.world.accounts.key undo.account = some address →
      Truthful (start address) undo.current undo.effect)
    (transaction : after.lifetime.transaction = self.lifetime.transaction)
    (seen : ∀ undo, entry = .account undo → ∀ row, self.world.accounts.row undo.account = some row →
      row.observation.transaction = self.lifetime.transaction) : Audited env start after := by
  cases unbooked with
  | aside others quiet => exact audited.sameFaces quiet transaction
  | gaveBack same recast records changed =>
      rename_i undo row
      have current := seen undo same row recast.held
      obtain ⟨last, lastFound, lastAccount⟩ := audited.books.handle _ row recast.held current
      refine audited.recast books recast (fun index record found differs => ?_)
        (fun index record found account => ?_) fun other member => .inl (journal ▸ member)
      · rw [records] at found
        obtain ⟨old, before, rfl⟩ := affected_of_modify found
        split at differs
        · rename_i here
          rw [← here, before] at lastFound
          cases lastFound
          exact absurd lastAccount differs
        · rename_i elsewhere
          rw [if_neg elsewhere]
          exact before
      · rw [records] at found
        obtain ⟨old, before, rfl⟩ := affected_of_modify found
        have oldAccount : old.account = undo.account := by
          split at account <;> exact account
        have held : self.world.accounts.row old.account = some row := oldAccount ▸ recast.held
        have position := audited.books.record_of_row before held
        have here : index = row.observation.index := (congrArg ObservationHandle.index position).symm
        obtain ⟨-, address, -, key, -, original⟩ := audited.books.record index old before
        rw [if_pos here]
        change Truthful old.original undo.current undo.effect
        rw [original]
        exact kept undo address same (oldAccount ▸ key)

theorem popped (audited : Audited env start self) {entry : Entry} {older : Journal}
    (journal : self.journal = entry :: older)
    (undone : Undone { self with journal := older } entry after) : Audited env start after := by
  have bare : Audited env start { self with journal := older } :=
    audited.same rfl rfl (fun undo member => journal ▸ List.mem_cons_of_mem _ member) rfl
  have here : ∀ undo, entry = .account undo → Entry.account undo ∈ self.journal :=
    fun undo same => journal ▸ same ▸ List.mem_cons_self
  refine bare.unbooked undone.booked (audited.books.popped journal undone) undone.journal
    (fun undo address same key => audited.kept undo address (here undo same) key)
    (congrArg Lifetimes.transaction undone.control.lifetime) fun undo same row held => ?_
  obtain ⟨other, -, otherHeld, -, current, -⟩ := audited.books.entry undo (here undo same)
  cases otherHeld.symm.trans held
  exact current

theorem unwound (audited : Audited env start self) {count : Nat}
    (ran : popEntries count self = .ok () after) : Audited env start after := by
  refine popEntries_induct (motive := Audited env start) ?_ ran audited
  intro state entry older last journal audited undone
  exact audited.popped journal (undoEntry_ran undone)

theorem reverted (audited : Audited env start self) {held : Checkpoint}
    (ran : revertToCheckpoint held self = .ok () after) : Audited env start after := by
  obtain ⟨-, mid, unwound, rfl⟩ := revertToCheckpoint_ran ran
  have flagged : Audited env start self.flagged := audited.same rfl rfl (fun _ member => member) rfl
  have left : Audited env start mid := flagged.unwound unwound
  exact left.same rfl rfl (fun _ member => member) rfl

theorem changed (audited : Audited env start self) (ordinary : licence ≠ .finalization)
    (steps : Changed env licence self after) : Audited env start after := by
  induction steps with
  | refl => exact audited
  | tail _ step ih =>
      exact ih.booked ordinary step.booked (congrArg Lifetimes.transaction step.control.lifetime)

theorem assigned (audited : Audited env start self) (ordinary : licence ≠ .finalization)
    (steps : Assigned env licence self after) : Audited env start after :=
  audited.changed ordinary steps.changed

end Audited

/-! ## Finalisation -/

/-- Calls that keep the records truthful. -/
def auditing (env : Env) (start : Address → Option Account) : Discipline WorldState where
  inv := Audited env start
  rel _ _ := True
  refl _ := trivial
  trans _ _ := trivial

variable {α : Type} {id : AccountId} {address : Address}

theorem auditing_of_assigned {post : α → WorldState → Prop} {body : Method α}
    (ordinary : licence ≠ .finalization) (kept : Keeps (assignments env licence) pre body post) :
    Keeps (auditing env start) pre body post :=
  kept.relate (fun _ _ => trivial) fun _ _ audited _ rel =>
    ⟨Audited.assigned audited ordinary rel, trivial⟩

/-- What two disciplines say of one body. -/
theorem keeps_both {first second : Discipline WorldState} {pre' : WorldState → Prop}
    {post post' : α → WorldState → Prop} {body : Method α} (left : Keeps first pre body post)
    (right : Keeps second pre' body post') (always : ∀ self, second.inv self) :
    Keeps first (fun self => pre self ∧ pre' self) body fun value self => post value self ∧
      post' value self := by
  intro self invariant holds
  have ran := left self invariant holds.1
  have ran' := right self (always self) holds.2
  cases outcome : body self with
  | illegal => trivial
  | fail error after =>
      rw [outcome] at ran
      exact ran
  | ok value after =>
      rw [outcome] at ran ran'
      exact ⟨ran.1, ran.2.1, ran.2.2, ran'.2.2⟩

/-- The effect of a prepared row is updated. -/
theorem updateAccountEffect_audited (marks : ∀ current, Writes .call current current update) :
    Keeps (auditing env start) (Prepared id) (updateAccountEffect id update) fun _ => Prepared id := by
  rintro self audited ⟨row, held, running, ready⟩
  cases found : self.observedAccounts[row.observation.index]? with
  | none =>
      rw [updateAccountEffect_run_none held found]
      trivial
  | some observed =>
      rw [updateAccountEffect_run held found]
      refine ⟨?_, trivial, row, held, running, ready⟩
      have recast : Recast self (setAccountEffect row.observation.index update self) id row
          { row.face with current := row.current } :=
        ⟨held, _, (Table.set_row_self held).symm, rfl⟩
      exact Audited.wrote audited recast ready (marks row.current) (records_setAccountEffect ..) rfl
        rfl rfl
        fun address effect key truthful => truthful.written (marks row.current) (fun final =>
          nomatch final)

/-- A body that reads facts and deletes nothing. -/
theorem audited_reading {post : α → WorldState → Prop} {body : Method α}
    (ordinary : licence ≠ .finalization) (kept : Keeps (assignments env licence) pre body post)
    (reads : Safe (reading env) body) :
    Keeps (auditing env start) (fun self => pre self ∧ FactsOf env id address held self) body
      fun value self => post value self ∧ FactsOf env id address held self :=
  keeps_both (auditing_of_assigned ordinary kept)
    (@frame_reading env (fun _ => False) α id address held body reads) fun _ => trivial

theorem call_ordinary : Licence.call ≠ .finalization := fun final => nomatch final

theorem creation_ordinary : Licence.creation address ≠ .finalization := fun final => nomatch final

/-- A deletion is of an account that is there, or that never was. -/
theorem writeAccount_audited (value : Option Account)
    (spares : value = none → held.current = none → start address = none) :
    Keeps (auditing env start) (FactsOf env id address held) (writeAccount env id value)
      fun _ => Prepared id := by
  unfold writeAccount
  refine Keeps.bind assertMutable_running fun _ => ?_
  refine Keeps.bind (Keeps.imp (audited_reading call_ordinary (observeAccount_assigned id _)
    (observeAccount_accounts id _)) (fun _ known => ⟨trivial, known.2⟩) fun _ _ holds => holds)
      fun _ => ?_
  refine Keeps.bind (audited_reading call_ordinary (prepareAccountMutation_assigned id)
    (prepareAccountMutation_accounts id)) fun _ => ?_
  refine Keeps.bind (accountRow_reads id) fun row => Keeps.bind Keeps.get fun state => ?_
  rintro self audited ⟨-, rowHeld, prepared, known⟩
  have assignable := prepared.assignable rowHeld
  have current : row.current = held.current := congrArg AccountFacts.current (known.row rowHeld)
  let update (other : AccountRow) : AccountRow := { other with
    codeRef := if accountCodeHash row.current ≠ accountCodeHash value then
      state.code.bind (accountCodeHash value) else other.codeRef
    current := value }
  have assigns : AssignsValues update := fun _ => rfl
  have assigned := assignable.assigned assigns
  rw [Action.bind_run, Action.modify_run]
  dsimp only
  cases found : self.observedAccounts[row.observation.index]? with
  | none =>
      rw [updateAccountEffect_run_none assigned.held found]
      trivial
  | some observed =>
      rw [updateAccountEffect_run assigned.held found]
      refine ⟨?_, trivial, _, assigned.held, assigned.running, assigned.ready⟩
      refine Audited.wrote audited (.updated rowHeld rfl rfl) assignable.ready
        (@Writes.wrote .finalization row.current value (.inr rfl))
        (records_setAccountEffect ..) rfl rfl rfl
        fun other effect key truthful => truthful.recorded fun absent previous => ?_
      cases known.1.symm.trans key
      exact spares absent (current ▸ previous)

/-- Flags that are no part of a face. -/
theorem assign_audited {update : AccountRow → AccountRow}
    (face : ∀ row, (update row).face = row.face) (running : ∀ self, pre self → Running self) :
    Keeps (auditing env start) pre (Action.modify (updateAccount id update) : Method Unit)
      fun _ => Running :=
  Keeps.modify fun self audited holds => ⟨Audited.sameFaces audited
    (.updated rfl face rfl rfl [] rfl fun _ member => nomatch member) rfl, trivial, running self holds⟩

/-- Finalising a self-destructed account. -/
theorem finalizeSelfdestructed_audited (policy : SelfDestructFinalization)
    (spares : policy.resetAccount = true ∨ policy.deleteAccount = true → held.current = none →
      start address = none) :
    Keeps (auditing env start) (fun self => Running self ∧ FactsOf env id address held self)
      (finalizeSelfdestructed env id policy) fun _ => Running := by
  have wiped : Keeps (auditing env start) (fun self => Running self ∧ FactsOf env id address held self)
      (Action.when (policy.clearStorage = true) (do
        wipeStorage env id
        updateAccountEffect id fun effect => { effect with storageWiped := true }))
      fun _ self => Running self ∧ FactsOf env id address held self := by
    refine Keeps.when _ (fun _ => ?_) fun _ _ holds => holds
    have wipes : Keeps (assignments env (.creation address))
        (fun self => self.world.accounts.key id = some address) (wipeStorage env id) fun _ =>
        Prepared id :=
      wipeStorage_assigned id rfl
    have reads : Keeps (auditing env start) (fun self => self.world.accounts.key id = some address ∧
        FactsOf env id address held self) (wipeStorage env id)
        fun _ self => Prepared id self ∧ FactsOf env id address held self :=
      audited_reading creation_ordinary wipes (wipeStorage_accounts id)
    refine Keeps.bind (reads.imp (fun _ known => ⟨known.2.1, known.2⟩)
      fun _ _ holds => holds) fun _ => ?_
    refine Keeps.imp (keeps_both (updateAccountEffect_audited fun current => ?_)
      (@frame_reading env (fun _ => False) Unit id address held _ (updateAccountEffect_accounts id _))
      fun _ => trivial) (fun _ holds => holds) fun _ _ holds => ⟨holds.1.running, holds.2⟩
    exact .marked (fun _ => rfl) (fun _ => rfl) (fun _ => rfl) fun _ => rfl
  have settled : Keeps (auditing env start) (fun self => Running self ∧ FactsOf env id address held self)
      (resetOrDelete env id policy) fun _ => Running := by
    unfold resetOrDelete
    split
    · rename_i resets
      refine Keeps.bind (accountRow_looks id).kept fun row => ?_
      exact (writeAccount_audited _ fun _ => spares (.inl resets)).imp (fun _ holds => holds.2)
        fun _ _ prepared => prepared.running
    · refine Keeps.when _ (fun deletes => ?_) fun _ _ holds => holds.1
      exact (writeAccount_audited _ fun _ => spares (.inr deletes)).imp (fun _ holds => holds.2)
        fun _ _ prepared => prepared.running
  unfold finalizeSelfdestructed
  refine Keeps.bind wiped fun _ => Keeps.bind settled fun _ => ?_
  refine Keeps.bind (auditing_of_assigned call_ordinary (prepareAccountMutation_assigned id)) fun _ => ?_
  exact assign_audited (fun _ => rfl) fun _ prepared => prepared.running

end WorldState

/-- The rules take no second deletion of an account that was there at `start`. -/
def AccountFacts.Spared (rules : FinalizationRules) (start : Option Account)
    (facts : AccountFacts) : Prop :=
  let policy := if facts.marks.created then rules.createdAccount else rules.existingAccount
  facts.marks.selfdestructed = true → (policy.resetAccount = true ∨ policy.deleteAccount = true) →
    facts.current = none → start = none

/-- An account that was finalised is no longer marked. -/
theorem AccountFacts.finalized_spared (facts : AccountFacts) (rules : FinalizationRules)
    (start : Option Account) : (facts.finalized rules).Spared rules start := by
  have unmarked : (facts.finalized rules).marks.selfdestructed = false := by
    unfold AccountFacts.finalized
    split
    · rename_i unmarked
      exact unmarked.2
    · split
      · rename_i kept
        exact kept
      · rfl
  intro marked
  cases unmarked.symm.trans marked

namespace WorldState

variable {env : Env} {self after : WorldState} {start : Address → Option Account} {id : AccountId}
  {address : Address} {rules : FinalizationRules}

theorem finalizeAccount_audited (spared : held.Spared rules (start address)) :
    Keeps (auditing env start) (fun self => Running self ∧ FactsOf env id address held self)
      (finalizeAccount env rules id) fun _ => Running := by
  unfold finalizeAccount
  refine Keeps.bind (accountRow_reads id) fun row => ?_
  have facts : ∀ self, (self.world.accounts.row id = some row ∧ Running self ∧
      FactsOf env id address held self) →
      row.facts = held ∧ Running self ∧ FactsOf env id address held self := by
    rintro self ⟨rowHeld, running, known⟩
    exact ⟨known.row rowHeld, running, known⟩
  refine Keeps.imp (Keeps.assuming fun same => ?_) facts fun _ _ holds => holds
  subst same
  split
  · exact (Keeps.pure ()).weaken fun _ _ holds => holds.2.1
  · split
    · refine Keeps.bind ((auditing_of_assigned call_ordinary (prepareAccountMutation_assigned id)).imp
        (fun _ holds => holds.1) fun _ _ holds => holds) fun _ => ?_
      exact assign_audited (fun _ => rfl) fun _ prepared => prepared.running
    · rename_i destructed
      exact finalizeSelfdestructed_audited _ (spared (Bool.eq_true_of_not_eq_false destructed))

theorem finalizeAccounts_audited (ids : List AccountId) :
    Keeps (auditing env start)
      (fun self => Running self ∧ ∀ address, (self.factsAt env address).Spared rules (start address))
      (Action.forEach (finalizeAccount env rules) ids) fun _ => Running := by
  induction ids with
  | nil => exact (Keeps.pure ()).weaken fun _ _ holds => holds.2.1
  | cons id ids ih =>
      refine Keeps.bind ?_ fun _ => ih
      rintro self audited ⟨running, spared⟩
      cases found : self.world.accounts.key id with
      | none =>
          have missing : self.world.accounts.row id = none := by
            by_contra held
            obtain ⟨row, rowHeld⟩ := Option.ne_none_iff_exists'.mp held
            obtain ⟨address, key⟩ := Table.key_eq_some_of_row rowHeld
            rw [found] at key
            cases key
          unfold finalizeAccount
          rw [Action.bind_run, accountRow_run_none missing]
          trivial
      | some address =>
          have ran := finalizeAccount_audited (spared address) self audited ⟨running, found, rfl⟩
          cases outcome : finalizeAccount env rules id self with
          | illegal => trivial
          | fail error after =>
              rw [outcome] at ran
              exact ran
          | ok value after =>
              rw [outcome] at ran
              refine ⟨ran.1, trivial, ran.2.2, fun other => ?_⟩
              obtain ⟨-, facts⟩ := finalizeAccount_ran outcome other
              rw [facts]
              split
              · exact AccountFacts.finalized_spared _ rules _
              · exact spared other

theorem finalizeLifecycle_audited (audited : Audited env start self)
    (spared : ∀ address, (self.factsAt env address).Spared rules (start address))
    (ends : Nested.EndsIn (finalizeLifecycle env rules self) after) : Audited env start after := by
  have opens : Audited env start (opened self) := audited.same rfl rfl (fun _ member => member) rfl
  have kept := fun running => finalizeAccounts_audited self.lifecycleAccounts (opened self) opens
    ⟨running, spared⟩
  rcases ends with ⟨_, ran⟩ | ⟨_, ran⟩
  · obtain ⟨running, ⟨-, rfl⟩ | ⟨inner, loop, commits⟩⟩ := finalizeLifecycle_ok ran
    · exact audited
    · have loops := kept running
      rw [loop] at loops
      obtain ⟨-, rfl⟩ := commitCheckpoint_ran commits
      exact loops.1.same rfl rfl (fun _ member => member) rfl
  · obtain ⟨running, inner, loop, reverts⟩ := finalizeLifecycle_error ran
    have loops := kept running
    rw [loop] at loops
    exact loops.1.reverted reverts

end WorldState

end EvmZig.State
