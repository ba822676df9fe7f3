import EvmZig.State.WarmKeys

/-!
# What calls warm

A call warms at most the key it names, once it has found the row.  The status it
reports is whether the key was warm before.
-/

set_option autoImplicit false

namespace EvmZig.State

open Lib Zig

namespace WorldState

variable {env : Env} {licence : Licence} {self after last mid : WorldState} {α β : Type}
  {key : WarmKey} {cold : α → Bool} {body : Method α} {address : Address} {op : Op}

/-! ## Journals that grow -/

/-- The journal of a later state of the same attempt, and the keys warmed since. -/
structure Extends (env : Env) (before after : WorldState) (keys : List WarmKey) : Prop where
  journaled : Journaled env after
  transaction : after.lifetime.transaction = before.lifetime.transaction
  journal : ∃ newer, after.journal = newer ++ before.journal ∧ after.warmKeys newer = keys
  kept : ∀ older, (∀ entry ∈ older, entry ∈ before.journal) →
    after.warmKeys older = before.warmKeys older

namespace Extends

variable {keys newest : List WarmKey}

theorem refl (journaled : Journaled env self) : Extends env self self [] :=
  ⟨journaled, rfl, ⟨[], rfl, rfl⟩, fun _ _ => rfl⟩

theorem trans (first : Extends env self after keys) (second : Extends env after last newest) :
    Extends env self last (newest ++ keys) := by
  obtain ⟨newer, journal, warmed⟩ := first.journal
  obtain ⟨latest, journal', warmed'⟩ := second.journal
  have lower : ∀ older : Journal, (∀ entry ∈ older, entry ∈ self.journal) →
      ∀ entry ∈ older, entry ∈ after.journal := by
    intro older within entry member
    rw [journal]
    exact List.mem_append_right _ (within entry member)
  refine ⟨second.journaled, second.transaction.trans first.transaction,
    ⟨latest ++ newer, ?_, ?_⟩, fun older within => ?_⟩
  · rw [journal', journal, List.append_assoc]
  · rw [warmKeys_append, warmed', second.kept newer, warmed]
    intro entry member
    rw [journal]
    exact List.mem_append_left _ member
  · rw [second.kept older (lower older within), first.kept older within]

theorem warmKeys (grown : Extends env self after keys) :
    after.warmKeys after.journal = keys ++ self.warmKeys self.journal := by
  obtain ⟨newer, journal, warmed⟩ := grown.journal
  rw [journal, warmKeys_append, warmed, grown.kept _ fun _ member => member]

end Extends

theorem Undisturbed.grown (undisturbed : Undisturbed self after) (journaled : Journaled env self)
    (begun : self.lifetime.transaction ≠ 0) : Extends env self after [] := by
  obtain ⟨newer, journal, aside⟩ := undisturbed.journal
  exact ⟨journaled.undisturbed undisturbed begun,
    congrArg Lifetimes.transaction undisturbed.control.lifetime,
    ⟨newer, journal, warmKeys_aside aside⟩, fun _ => journaled.warmKeys_kept undisturbed⟩

theorem Warms.grown {entry : Entry} (warms : Warms env self key entry after)
    (journaled : Journaled env self) : Extends env self after [key] := by
  refine ⟨journaled.warmed warms,
    congrArg Lifetimes.transaction warms.toggles.control.lifetime,
    ⟨[entry], warms.journal, ?_⟩, fun older within => ?_⟩
  · rw [WorldState.warmKeys, List.filterMap_cons, warms.key]
    rfl
  · exact warms.toggles.warmKeys_kept fun entry member => journaled.keyed entry (within entry member)

/-! ## Outcomes -/

/-- The key is warm afterwards, and nothing else was warmed. -/
def Adds (env : Env) (key : WarmKey) (self after : WorldState) : Prop :=
  Extends env self after [key] ∨ self.isWarm env key = true ∧ Extends env self after []

/-- A call that warms a key if it returns, and reads `cold` off its result. -/
def Reports (env : Env) (key : WarmKey) (cold : α → Bool) (self : WorldState) :
    Outcome WorldState StateError α → Prop
  | .ok value after => Adds env key self after ∧ cold value = !self.isWarm env key
  | .fail _ after => Extends env self after []
  | .illegal => True

/-- A call that warms a key if it returns. -/
def Reaches (env : Env) (key : WarmKey) (self : WorldState) :
    Outcome WorldState StateError α → Prop
  | .ok _ after => Adds env key self after
  | .fail _ after => Extends env self after []
  | .illegal => True

/-- States of an attempt whose marks are in order. -/
structure Sound (env : Env) (state : WorldState) : Prop where
  journaled : Journaled env state
  begun : state.lifetime.transaction ≠ 0

theorem Extends.sound {keys : List WarmKey} (grown : Extends env self after keys)
    (sound : Sound env self) : Sound env after :=
  ⟨grown.journaled, by rw [grown.transaction]; exact sound.begun⟩

theorem Assigned.grown (steps : Assigned env licence self after) (sound : Sound env self) :
    Extends env self after [] := steps.undisturbed.grown sound.journaled sound.begun

theorem Extends.isWarm (grown : Extends env self after []) (sound : Sound env self)
    (key : WarmKey) : after.isWarm env key = self.isWarm env key := by
  rw [Bool.eq_iff_iff, grown.journaled.isWarm_iff, sound.journaled.isWarm_iff, grown.warmKeys]
  rfl

theorem Adds.before (first : Extends env self mid []) (sound : Sound env self)
    (adds : Adds env key mid after) : Adds env key self after := by
  rw [Adds, first.isWarm sound] at adds
  exact adds.imp (fun rest => first.trans rest) fun ⟨warm, rest⟩ => ⟨warm, first.trans rest⟩

theorem Adds.then (adds : Adds env key self mid) (rest : Extends env mid after []) :
    Adds env key self after :=
  adds.imp (fun first => first.trans rest) fun ⟨warm, first⟩ => ⟨warm, first.trans rest⟩

theorem Adds.sound {self after : WorldState} (adds : Adds env key self after)
    (sound : Sound env self) : Sound env after :=
  adds.elim (fun rest => rest.sound sound) fun ⟨_, rest⟩ => rest.sound sound

/-- Assignments come first. -/
theorem Reports.assigned {first : Method α} {next : α → Method β} {cold : β → Bool}
    {pre : WorldState → Prop} {mid : α → WorldState → Prop} (sound : Sound env self) (here : pre self)
    (kept : Keeps (assignments env .call) pre first mid)
    (rest : ∀ value state, Sound env state → mid value state →
      Reports env key cold state (next value state)) :
    Reports env key cold self ((first >>= next) self) := by
  rw [Action.bind_run]
  have ran := kept self trivial here
  cases outcome : first self with
  | illegal => trivial
  | fail error state =>
      rw [outcome] at ran
      exact Assigned.grown ran.2 sound
  | ok value state =>
      rw [outcome] at ran
      have extended := Assigned.grown ran.2.1 sound
      have reports := rest value state (extended.sound sound) ran.2.2
      revert reports
      dsimp only
      cases next value state with
      | illegal => exact fun _ => trivial
      | fail error final => exact fun failed => extended.trans failed
      | ok result final =>
          intro ⟨adds, status⟩
          rw [extended.isWarm sound] at status
          exact ⟨adds.before extended sound, status⟩

/-- The result is read another way. -/
theorem Reports.map {transform : α → β} {read : β → Bool}
    (reports : Reports env key cold self (body self))
    (same : ∀ value, read (transform value) = cold value) :
    Reports env key read self ((body >>= fun value => pure (transform value)) self) := by
  rw [Action.bind_run]
  revert reports
  cases body self with
  | illegal => exact fun _ => trivial
  | fail error state => exact fun failed => failed
  | ok value state =>
      intro ⟨adds, status⟩
      exact ⟨adds, (same value).trans status⟩

theorem Reports.reaches {transform : α → β} (reports : Reports env key cold self (body self)) :
    Reaches env key self ((body >>= fun value => pure (transform value)) self) := by
  rw [Action.bind_run]
  revert reports
  cases body self with
  | illegal => exact fun _ => trivial
  | fail error state => exact fun failed => failed
  | ok value state => exact fun reports => reports.1

/-! ## Warming a row -/

theorem asked_extends (requests : Nat) (sound : Sound env self) :
    Extends env self (asked requests self) [] :=
  Undisturbed.grown (.world rfl rfl rfl rfl) sound.journaled sound.begun

/-- After requests alone, a warming is as good as at once. -/
theorem Reports.asking {body : Method Unit} {next : Unit → Method β} {cold : β → Bool}
    (asks : Asks body) (sound : Sound env self)
    (rest : ∀ requests, Sound env (asked requests self) →
      Reports env key cold (asked requests self) (next () (asked requests self))) :
    Reports env key cold self ((body >>= next) self) := by
  rw [Action.bind_run]
  obtain ⟨requests, ran | ⟨error, ran⟩⟩ := asks self
  · have extended := asked_extends requests sound
    have reports := rest requests (extended.sound sound)
    rw [ran]
    revert reports
    dsimp only
    cases next () (asked requests self) with
    | illegal => exact fun _ => trivial
    | fail error final => exact fun failed => extended.trans failed
    | ok result final =>
        intro ⟨adds, status⟩
        rw [extended.isWarm sound] at status
        exact ⟨adds.before extended sound, status⟩
  · rw [ran]
    exact asked_extends requests sound

theorem Reports.already {status : Bool} (sound : Sound env self)
    (warm : self.isWarm env key = true) (notCold : status = false) :
    Reports env key (fun status => status) self (.ok status self) :=
  ⟨.inr ⟨warm, .refl sound.journaled⟩, by rw [warm, notCold]; rfl⟩

theorem Reports.session {next : Method α} (rest : Reports env key cold self (next self)) :
    Reports env key cold self ((do assertSession; next) self) := by
  rw [Action.bind_run]
  rcases assertSession_run self with stuck | ⟨running, passes⟩
  · rw [stuck]
    trivial
  · rw [passes]
    exact rest

/-- A key with a row is warmed on the row. -/
theorem warmAccountId_reports {id : AccountId} (sound : Sound env self)
    (found : self.world.accounts.key id = some address) :
    Reports env (.account address) (fun cold => cold) self (warmAccountId env id self) := by
  obtain ⟨row, held⟩ := Table.row_eq_some_of_key found
  unfold warmAccountId
  refine Reports.session ?_
  rw [Action.bind_run, accountRow, held]
  dsimp only
  rw [Action.bind_run, Action.get_run]
  dsimp only
  split
  · rename_i warm
    refine Reports.already sound ?_ rfl
    rw [isWarm, Journaled.accountWarm_iff]
    exact .inl ⟨id, found, by rw [accountStamp, held, Option.map_some, warm]⟩
  · rename_i cold
    rw [Action.bind_run, accountAddress, found]
    dsimp only
    refine Reports.asking Asks.reserve sound fun requests asking => ?_
    have warming : Warming env (asked requests self) (.account address) (.warmAccount id) _ :=
      .account found held cold
    refine ⟨.inl (warming.warms.grown asking.journaled), congrArg (!·) ?_⟩
    rw [Bool.eq_iff_iff, isWarm, Journaled.accountWarm_iff]
    refine (or_iff_right ?_).symm
    rintro ⟨other, otherKey, stamp⟩
    have same : other = id := Table.key_inj otherKey found
    have heldThen : (asked requests self).world.accounts.row id = some row := held
    rw [same, accountStamp, heldThen] at stamp
    exact cold (Option.some.inj stamp)

theorem warmStorageId_reports {id : StorageId} {key : TransientKey} (sound : Sound env self)
    (place : self.slotOf id = some (key.address, key.slot)) :
    Reports env (.slot key) (fun cold => cold) self (warmStorageId env id self) := by
  obtain ⟨account, stored, owner⟩ := slotOf_eq_some.mp place
  obtain ⟨row, held⟩ := Table.row_eq_some_of_key stored
  unfold warmStorageId
  refine Reports.session ?_
  rw [Action.bind_run, storageRow, held]
  dsimp only
  rw [Action.bind_run, Action.get_run]
  dsimp only
  split
  · rename_i warm
    refine Reports.already sound ?_ rfl
    rw [isWarm, Journaled.slotWarm_iff]
    exact .inl ⟨id, place, by rw [slotStamp, held, Option.map_some, warm]⟩
  · rename_i cold
    rw [Action.bind_run, storageKey, stored]
    dsimp only
    rw [Action.bind_run, accountAddress, owner]
    dsimp only
    refine Reports.asking Asks.reserve sound fun requests asking => ?_
    have warming : Warming env (asked requests self) (.slot key) (.warmStorage id) _ :=
      .slot place held cold
    refine ⟨.inl (warming.warms.grown asking.journaled), congrArg (!·) ?_⟩
    rw [Bool.eq_iff_iff, isWarm, Journaled.slotWarm_iff]
    refine (or_iff_right ?_).symm
    rintro ⟨other, otherPlace, stamp⟩
    obtain ⟨otherAccount, otherStored, otherOwner⟩ := slotOf_eq_some.mp otherPlace
    rw [Table.key_inj otherOwner owner] at otherStored
    have same : other = id := Table.key_inj otherStored stored
    have heldThen : (asked requests self).world.storage.row id = some row := held
    rw [same, slotStamp, heldThen] at stamp
    exact cold (Option.some.inj stamp)

/-- A key without a row is kept until it has one. -/
theorem keepAccount_reports (sound : Sound env self) (grows : env.growsOnTouch = true)
    (missing : self.findAccount address = none)
    (cold : (self.deferredWarmth.accounts.value address).getD false = false) :
    Reports env (.account address) (fun cold => cold) self ((do
      Action.modify fun self =>
        { self with deferredWarmth := { self.deferredWarmth with
            accounts := self.deferredWarmth.accounts.put address true } }
      let self ← Action.get
      let entry ← self.deferredWarmth.accounts.find address
      Action.modify (push (.deferredWarmAccount entry))
      return true : Method Bool) self) := by
  rw [Action.bind_run, Action.modify_run]
  dsimp only
  rw [Action.bind_run, Action.get_run]
  dsimp only
  rw [Action.bind_run]
  cases found : (self.deferredWarmth.accounts.put address true).find address with
  | none => trivial
  | some entry =>
      have warming : Warming env self (.account address) (.deferredWarmAccount entry) _ :=
        .deferredAccount grows cold found
      refine ⟨.inl (warming.warms.grown sound.journaled), ?_⟩
      rw [isWarm, isAccountWarm, missing, deferredAccountWarm, if_pos grows, cold]
      rfl

theorem keepStorage_reports {key : TransientKey} (sound : Sound env self)
    (grows : env.growsOnTouch = true) (missing : ∀ id, self.slotOf id ≠ some (key.address, key.slot))
    (cold : (self.deferredWarmth.storage.value key).getD false = false) :
    Reports env (.slot key) (fun cold => cold) self ((do
      Action.modify fun self =>
        { self with deferredWarmth := { self.deferredWarmth with
            storage := self.deferredWarmth.storage.put key true } }
      let self ← Action.get
      let entry ← self.deferredWarmth.storage.find key
      Action.modify (push (.deferredWarmStorage entry))
      return true : Method Bool) self) := by
  rw [Action.bind_run, Action.modify_run]
  dsimp only
  rw [Action.bind_run, Action.get_run]
  dsimp only
  rw [Action.bind_run]
  cases found : (self.deferredWarmth.storage.put key true).find key with
  | none => trivial
  | some entry =>
      have warming : Warming env self (.slot key) (.deferredWarmStorage entry) _ :=
        .deferredSlot grows cold found
      refine ⟨.inl (warming.warms.grown sound.journaled), ?_⟩
      have notWarm : self.isWarm env (.slot key) = false := by
        rw [← Bool.not_eq_true, isWarm, Journaled.slotWarm_iff]
        rintro (⟨id, place, -⟩ | warm)
        · exact missing id place
        · rw [deferredStorageWarm, if_pos grows, cold] at warm
          cases warm
      rw [notWarm]
      rfl

theorem deferAccountWarm_reports (sound : Sound env self) (grows : env.growsOnTouch = true)
    (missing : self.findAccount address = none) :
    Reports env (.account address) (fun cold => cold) self (deferAccountWarm env address self) := by
  unfold deferAccountWarm
  refine Reports.session ?_
  rw [Action.bind_run, Action.get_run]
  dsimp only
  split
  · rename_i warm
    refine Reports.already sound ?_ rfl
    rw [isWarm, isAccountWarm, missing]
    exact warm
  · rename_i cold
    rw [deferredAccountWarm, if_pos grows] at cold
    refine Reports.asking Asks.reserve sound fun first asking => ?_
    refine Reports.asking Asks.reserve asking fun second again => ?_
    exact keepAccount_reports again grows missing (Bool.eq_false_of_not_eq_true cold)

theorem deferStorageWarm_reports {key : TransientKey} (sound : Sound env self)
    (grows : env.growsOnTouch = true)
    (missing : ∀ id, self.slotOf id ≠ some (key.address, key.slot)) :
    Reports env (.slot key) (fun cold => cold) self
      (deferStorageWarm env key.address key.slot self) := by
  unfold deferStorageWarm
  refine Reports.session ?_
  rw [Action.bind_run, Action.get_run]
  dsimp only
  split
  · rename_i warm
    refine Reports.already sound ?_ rfl
    rw [isWarm, Journaled.slotWarm_iff]
    exact .inr warm
  · rename_i cold
    rw [deferredStorageWarm, if_pos grows] at cold
    refine Reports.asking Asks.reserve sound fun first asking => ?_
    refine Reports.asking Asks.reserve asking fun second again => ?_
    exact keepStorage_reports again grows missing (Bool.eq_false_of_not_eq_true cold)

/-! ## The calls -/

/-- The world keeps warmth of the key: it takes any key, or has a row for this one. -/
def Covers (env : Env) (self : WorldState) : WarmKey → Prop
  | .account address => env.growsOnTouch = true ∨ self.findAccount address ≠ none
  | .slot key => env.growsOnTouch = true ∨
      ∃ account, self.findAccount key.address = some account ∧ self.findStorage account key.slot ≠ none

instance (env : Env) (self : WorldState) : DecidablePred (self.Covers env)
  | .account _ => inferInstanceAs (Decidable (_ ∨ _))
  | .slot key =>
      match found : self.findAccount key.address with
      | none => decidable_of_iff (env.growsOnTouch = true) (by simp [Covers, found])
      | some account => decidable_of_iff
          (env.growsOnTouch = true ∨ self.findStorage account key.slot ≠ none)
          (by simp [Covers, found])

theorem resolveAccount_optional (address : Address) :
    resolveAccount env address .optionalWarmOnly self = .ok (self.findAccount address) self := by
  rw [resolveAccount, Action.bind_run, Action.get_run]
  dsimp only
  cases self.findAccount address <;> rfl

theorem resolveStorage_optional (account : AccountId) (slot : U256) :
    resolveStorage env account slot .optionalWarmOnly self =
      .ok (self.findStorage account slot) self := by
  rw [resolveStorage, Action.bind_run, Action.get_run]
  dsimp only
  cases self.findStorage account slot <;> rfl

theorem accessAccount_reports (address : Address) (sound : Sound env self) :
    Reports env (.account address) (fun status => status = .cold) self
      (accessAccount env address self) := by
  unfold accessAccount
  refine Reports.assigned sound trivial (requireAccount_assigned address) fun id state sound key => ?_
  refine Reports.assigned sound key (key_of_safe (observeAccount_safe_assigned id _))
    fun _ later sound key => ?_
  refine Reports.map (warmAccountId_reports sound key) fun cold => ?_
  cases cold <;> rfl

theorem warmAccount_reaches (address : Address) (sound : Sound env self)
    (covers : self.Covers env (.account address)) :
    Reaches env (.account address) self (warmAccount env address self) := by
  unfold warmAccount
  rw [Action.bind_run, resolveAccount_optional]
  dsimp only
  cases found : self.findAccount address with
  | some id => exact (warmAccountId_reports sound (Table.find_eq_some.mp found)).reaches
  | none =>
      have grows := covers.resolve_right (not_not.mpr found)
      dsimp only
      rw [if_pos grows]
      exact (deferAccountWarm_reports sound grows found).reaches

/-- A closed world passes over what it has no row for. -/
theorem warmAccount_passes (foreign : ¬self.Covers env (.account address)) :
    warmAccount env address self = .ok () self := by
  have closed : ¬env.growsOnTouch = true := fun grows => foreign (.inl grows)
  have missing : self.findAccount address = none := not_not.mp fun found => foreign (.inr found)
  unfold warmAccount
  rw [Action.bind_run, resolveAccount_optional, missing]
  dsimp only
  rw [if_neg closed]
  rfl

theorem slotOf_missing {key : TransientKey} (missing : ∀ account,
    self.findAccount key.address = some account → self.findStorage account key.slot = none)
    (id : StorageId) : self.slotOf id ≠ some (key.address, key.slot) := by
  intro place
  obtain ⟨account, stored, owner⟩ := slotOf_eq_some.mp place
  exact Table.find_eq_none.mp (missing account (Table.find_eq_some.mpr owner)) id stored

theorem warmStorageAddress_reports (key : TransientKey) (sound : Sound env self)
    (covers : self.Covers env (.slot key)) :
    Reports env (.slot key) (fun cold => cold.getD true) self
      (warmStorageAddress env key.address key.slot self) := by
  unfold warmStorageAddress
  rw [Action.bind_run, resolveAccount_optional]
  dsimp only
  cases found : self.findAccount key.address with
  | none =>
      dsimp only
      have grows := covers.resolve_right fun ⟨account, held, _⟩ => by
        rw [found] at held
        cases held
      rw [if_pos grows]
      refine Reports.map (deferStorageWarm_reports sound grows (slotOf_missing fun account held => ?_))
        fun _ => rfl
      rw [found] at held
      cases held
  | some account =>
      dsimp only
      rw [Action.bind_run, resolveStorage_optional]
      dsimp only
      have owner := Table.find_eq_some.mp found
      cases stored : self.findStorage account key.slot with
      | some id =>
          have place : self.slotOf id = some (key.address, key.slot) :=
            slotOf_eq_some.mpr ⟨account, Table.find_eq_some.mp stored, owner⟩
          exact Reports.map (warmStorageId_reports sound place) fun _ => rfl
      | none =>
          dsimp only
          have missing : ∀ other, self.findAccount key.address = some other →
              self.findStorage other key.slot = none := by
            intro other held
            rw [found] at held
            obtain rfl := Option.some.inj held
            exact stored
          have grows := covers.resolve_right fun ⟨other, held, there⟩ => there (missing other held)
          rw [if_pos grows, Action.bind_run, accountAddress, owner]
          exact Reports.map (deferStorageWarm_reports sound grows (slotOf_missing missing))
            fun _ => rfl

theorem accessStorage_eq (address : Address) (slot : U256) :
    accessStorage env address slot = warmStorageAddress env address slot >>= fun found =>
      pure (match found with
        | none => .cold
        | some wasCold => if wasCold then .cold else .warm) := by
  unfold accessStorage
  congr 1
  funext found
  cases found <;> rfl

theorem accessStorage_reports (key : TransientKey) (sound : Sound env self)
    (covers : self.Covers env (.slot key)) :
    Reports env (.slot key) (fun status => status = .cold) self
      (accessStorage env key.address key.slot self) := by
  rw [accessStorage_eq]
  refine Reports.map (warmStorageAddress_reports key sound covers) fun found => ?_
  rcases found with none | cold
  · rfl
  · cases cold <;> rfl

theorem warmStorageAddress_passes {key : TransientKey} (foreign : ¬self.Covers env (.slot key)) :
    warmStorageAddress env key.address key.slot self = .ok none self := by
  have closed : ¬env.growsOnTouch = true := fun grows => foreign (.inl grows)
  unfold warmStorageAddress
  rw [Action.bind_run, resolveAccount_optional]
  dsimp only
  cases found : self.findAccount key.address with
  | none =>
      dsimp only
      rw [if_neg closed]
      rfl
  | some account =>
      have stored : self.findStorage account key.slot = none :=
        not_not.mp fun there => foreign (.inr ⟨account, found, there⟩)
      dsimp only
      rw [Action.bind_run, resolveStorage_optional, stored]
      dsimp only
      rw [if_neg closed]
      rfl

theorem accessStorage_passes {key : TransientKey} (foreign : ¬self.Covers env (.slot key)) :
    accessStorage env key.address key.slot self = .ok .cold self := by
  rw [accessStorage_eq, Action.bind_run, warmStorageAddress_passes foreign]
  rfl

/-- Nor is it ever warm there. -/
theorem isWarm_covers (warm : self.isWarm env key = true) : self.Covers env key := by
  by_contra foreign
  cases key with
  | account address =>
      have missing : self.findAccount address = none := not_not.mp fun found => foreign (.inr found)
      rw [isWarm, isAccountWarm, missing, deferredAccountWarm,
        if_neg fun grows => foreign (.inl grows)] at warm
      cases warm
  | slot key =>
      have deferred : self.deferredStorageWarm env key.address key.slot = false :=
        if_neg fun grows => foreign (.inl grows)
      rw [isWarm, isStorageWarm] at warm
      cases found : self.findAccount key.address with
      | none =>
          rw [found, deferred] at warm
          cases warm
      | some account =>
          have stored : self.findStorage account key.slot = none :=
            not_not.mp fun there => foreign (.inr ⟨account, found, there⟩)
          rw [found] at warm
          dsimp only at warm
          rw [stored, deferred] at warm
          cases warm

/-! ## Loads and stores -/

/-- `loadStorage` and `storeStorage` up to the warming of their slot. -/
def reachStorage (env : Env) (address : Address) (slot : U256) :
    Method (ResolvedStorage × AccessStatus) := do
  let resolved ← requireStorage env address slot
  observeAccount env resolved.account { accessed := true }
  let accessStatus ← accessResolvedStorage env resolved
  return (resolved, accessStatus)

theorem loadStorage_eq (address : Address) (slot : U256) :
    loadStorage env address slot = reachStorage env address slot >>= fun reached => do
      let value ← readResolvedStorage env reached.1
      return (value, reached.2) := by
  simp only [loadStorage, reachStorage, bind_assoc, pure_bind]

theorem storeStorage_eq (address : Address) (slot value : U256) :
    storeStorage env address slot value = reachStorage env address slot >>= fun reached => do
      let storageStatus ← setResolvedStorage env reached.1 value
      return (storageStatus, reached.2) := by
  simp only [storeStorage, reachStorage, bind_assoc, pure_bind]

theorem resolves_of_safe {resolved : ResolvedStorage} {address : Address} {slot : U256}
    {body : Method α} (safe : Safe (assignments env .call) body) :
    Keeps (assignments env .call) (Resolves resolved address slot) body
      fun _ => Resolves resolved address slot := by
  refine (safe.carry ?_).imp (fun _ resolves => ⟨resolves, trivial⟩) fun _ _ holds => holds.1
  rintro before after steps ⟨owner, stored⟩
  exact ⟨Assigned.accountKey steps owner, Assigned.storageKey steps stored⟩

theorem reachStorage_reports (address : Address) (slot : U256) (sound : Sound env self) :
    Reports env (.slot ⟨address, slot⟩) (fun reached => reached.2 = .cold) self
      (reachStorage env address slot self) := by
  unfold reachStorage
  refine Reports.assigned sound trivial (requireStorage_assigned address slot)
    fun resolved state sound resolves => ?_
  refine Reports.assigned sound resolves (resolves_of_safe (observeAccount_safe_assigned _ _))
    fun _ later sound resolves => ?_
  have place : later.slotOf resolved.storage = some (address, slot) :=
    slotOf_eq_some.mpr ⟨resolved.account, resolves.2, resolves.1⟩
  have warms : Reports env (.slot ⟨address, slot⟩) (fun cold => cold) later
      (warmStorageId env resolved.storage later) := warmStorageId_reports sound place
  have accessed : Reports env (.slot ⟨address, slot⟩) (fun status => status = .cold) later
      (accessResolvedStorage env resolved later) := by
    refine Reports.map warms fun cold => ?_
    cases cold <;> rfl
  exact Reports.map accessed fun _ => rfl

theorem reachStorage_owned (address : Address) (slot : U256) :
    Keeps (changes env .call) (fun _ => True) (reachStorage env address slot)
      fun reached => Owned reached.1 := by
  unfold reachStorage
  refine Keeps.bind (changes_of_assignments (requireStorage_owned address slot)) fun resolved => ?_
  refine Keeps.bind (changes_of_assignments (slot_of_safe (observeAccount_safe_assigned _ _)))
    fun _ => ?_
  refine Keeps.bind (accessResolvedStorage_owned resolved resolved) fun access => ?_
  refine Keeps.returns ?_
  rintro _ after ⟨rfl, owned⟩
  exact owned


/-- A call that may fail after it has warmed its key. -/
def ReportsPast (env : Env) (key : WarmKey) (cold : α → Bool) (self : WorldState) (reached : Bool) :
    Outcome WorldState StateError α → Prop
  | .ok value after => Adds env key self after ∧ cold value = !self.isWarm env key
  | .fail _ after => if reached then Adds env key self after else Extends env self after []
  | .illegal => True

theorem Reports.run {next : α → Method β} {read : β → Bool} {pre : α → WorldState → Prop}
    (sound : Sound env self) (reports : Reports env key cold self (body self))
    (here : ∀ value after, body self = .ok value after → pre value after)
    (rest : ∀ value, Keeps (assignments env .call) (pre value) (next value) fun result _ =>
      read result = cold value) :
    ReportsPast env key read self (body self).toOption.isSome ((body >>= next) self) := by
  rw [Action.bind_run]
  cases outcome : body self with
  | illegal => trivial
  | fail error state =>
      rw [outcome] at reports
      exact reports
  | ok value state =>
      rw [outcome] at reports
      obtain ⟨adds, status⟩ := reports
      have ran := rest value state trivial (here value state outcome)
      dsimp only
      cases final : next value state with
      | illegal => trivial
      | fail error last =>
          rw [final] at ran
          exact adds.then (Assigned.grown ran.2 (adds.sound sound))
      | ok result last =>
          rw [final] at ran
          exact ⟨adds.then (Assigned.grown ran.2.1 (adds.sound sound)), ran.2.2.trans status⟩

theorem loadStorage_reports (address : Address) (slot : U256) (sound : Sound env self) :
    ReportsPast env (.slot ⟨address, slot⟩) (fun result => result.2 = .cold) self
      (reachStorage env address slot self).toOption.isSome (loadStorage env address slot self) := by
  rw [loadStorage_eq]
  refine Reports.run sound (reachStorage_reports address slot sound) (fun _ _ _ => trivial)
    fun reached => ?_
  refine Keeps.bind (readResolvedStorage_assigned reached.1) fun value => ?_
  refine Keeps.returns ?_
  rintro _ after ⟨rfl, -⟩
  rfl

theorem storeStorage_reports (address : Address) (slot value : U256) (sound : Sound env self) :
    ReportsPast env (.slot ⟨address, slot⟩) (fun result => result.2 = .cold) self
      (reachStorage env address slot self).toOption.isSome
      (storeStorage env address slot value self) := by
  have owned : ∀ reached after, reachStorage env address slot self = .ok reached after →
      Owned reached.1 after := by
    intro reached after ran
    have kept := @reachStorage_owned env address slot self trivial trivial
    rw [ran] at kept
    exact kept.2.2
  rw [storeStorage_eq]
  refine Reports.run sound (reachStorage_reports address slot sound) owned fun reached => ?_
  refine Keeps.bind (setResolvedStorage_assigned (by trivial) reached.1 value) fun status => ?_
  refine Keeps.returns ?_
  rintro _ after ⟨rfl, -⟩
  rfl

theorem requireAccount_covers {id : AccountId}
    (ran : requireAccount env address self = .ok id after) :
    self.Covers env (.account address) := by
  by_contra foreign
  have closed : ¬env.growsOnTouch = true := fun grows => foreign (.inl grows)
  have missing : self.findAccount address = none := not_not.mp fun found => foreign (.inr found)
  rw [requireAccount, Action.bind_run, resolveAccount, Action.bind_run, Action.get_run] at ran
  dsimp only at ran
  rw [missing] at ran
  dsimp only at ran
  rw [if_neg closed] at ran
  cases ran

theorem requireStorage_covers {slot : U256} {resolved : ResolvedStorage}
    (ran : requireStorage env address slot self = .ok resolved after) :
    self.Covers env (.slot ⟨address, slot⟩) := by
  by_contra foreign
  have closed : ¬env.growsOnTouch = true := fun grows => foreign (.inl grows)
  obtain ⟨account, state, required, rest⟩ := Action.bind_eq_ok.mp ran
  have found := (requireAccount_covers required).resolve_left closed
  obtain ⟨held, foundEq⟩ := Option.ne_none_iff_exists'.mp found
  rw [requireAccount, Action.bind_run, resolveAccount, Action.bind_run, Action.get_run] at required
  dsimp only at required
  rw [foundEq] at required
  obtain ⟨rfl, rfl⟩ : held = account ∧ self = state := by
    cases required
    exact ⟨rfl, rfl⟩
  have missing : self.findStorage held slot = none :=
    not_not.mp fun there => foreign (.inr ⟨held, foundEq, there⟩)
  rw [Action.bind_run, resolveStorage, Action.bind_run, Action.get_run] at rest
  dsimp only at rest
  rw [missing] at rest
  dsimp only at rest
  rw [if_neg closed] at rest
  cases rest

/-- The key a call warms. -/
def Op.warms : Op → Option WarmKey
  | .accessAccount address => some (.account address)
  | .warmAccount address => some (.account address)
  | .warmStorage address slot => some (.slot ⟨address, slot⟩)
  | .accessStorage address slot => some (.slot ⟨address, slot⟩)
  | .loadStorage address slot => some (.slot ⟨address, slot⟩)
  | .storeStorage address slot _ => some (.slot ⟨address, slot⟩)
  | _ => none

/-- A call up to its warming. -/
def Op.reach (env : Env) : Op → Method Unit
  | .loadStorage address slot => discard (reachStorage env address slot)
  | .storeStorage address slot _ => discard (reachStorage env address slot)
  | op => op.run env

/-- The warming a call is made for has happened. -/
def Op.Warmed (env : Env) (op : Op) (key : WarmKey) (self : WorldState) : Prop :=
  self.Covers env key ∧ (op.reach env self).toOption.isSome

instance (op : Op) (key : WarmKey) (self : WorldState) : Decidable (op.Warmed env key self) :=
  inferInstanceAs (Decidable (_ ∧ _))

/-- What a call does to warmth, whatever it returns. -/
def ReachesPast (env : Env) (key : WarmKey) (self : WorldState) (reached : Bool) :
    Outcome WorldState StateError α → Prop
  | .ok _ after => Adds env key self after
  | .fail _ after => if reached then Adds env key self after else Extends env self after []
  | .illegal => True

theorem Reports.past {cold : α → Bool} {outcome : Outcome WorldState StateError α}
    (reports : Reports env key cold self outcome) :
    ReachesPast env key self outcome.toOption.isSome outcome := by
  cases outcome with
  | ok value after => exact reports.1
  | fail error after => exact reports
  | illegal => trivial

theorem Reaches.past {outcome : Outcome WorldState StateError α}
    (reaches : Reaches env key self outcome) :
    ReachesPast env key self outcome.toOption.isSome outcome := by
  cases outcome with
  | ok value after => exact reaches
  | fail error after => exact reaches
  | illegal => trivial

theorem ReportsPast.reaches {reached : Bool} {outcome : Outcome WorldState StateError α}
    (reports : ReportsPast env key cold self reached outcome) :
    ReachesPast env key self reached outcome := by
  cases outcome with
  | ok value after => exact reports.1
  | fail error after => exact reports
  | illegal => trivial

theorem ReachesPast.forget {reached : Bool} (reaches : ReachesPast env key self reached (body self)) :
    ReachesPast env key self reached ((discard body : Method Unit) self) := by
  have run : (discard body : Method Unit) self = _ := Action.map_run _ body self
  rw [run]
  cases outcome : body self <;> rw [outcome] at reaches <;> exact reaches

theorem discard_isSome {body : Method α} :
    ((discard body : Method Unit) self).toOption.isSome = (body self).toOption.isSome := by
  have run : (discard body : Method Unit) self = _ := Action.map_run _ body self
  rw [run]
  cases body self <;> rfl

/-- A call on a key that the world covers. -/
theorem Op.run_reaches (named : op.warms = some key) (sound : Sound env self)
    (covers : self.Covers env key) :
    ReachesPast env key self (op.reach env self).toOption.isSome (op.run env self) := by
  cases op with
  | accessAccount address =>
      cases named
      have reached := @discard_isSome self _ (WorldState.accessAccount env address)
      exact reached ▸ (accessAccount_reports address sound).past.forget
  | warmAccount address =>
      cases named
      exact (warmAccount_reaches address sound covers).past
  | warmStorage address slot =>
      cases named
      exact (warmStorageAddress_reports _ sound covers).reaches.past
  | accessStorage address slot =>
      cases named
      have reached := @discard_isSome self _ (WorldState.accessStorage env address slot)
      exact reached ▸ (accessStorage_reports ⟨address, slot⟩ sound covers).past.forget
  | loadStorage address slot =>
      cases named
      rw [Op.reach, Op.run, discard_isSome]
      exact (loadStorage_reports address slot sound).reaches.forget
  | storeStorage address slot value =>
      cases named
      rw [Op.reach, Op.run, discard_isSome]
      exact (storeStorage_reports address slot value sound).reaches.forget
  | _ => cases named

/-- A call that returns got as far as its warming. -/
theorem Op.reach_of_run {value : Unit} (ran : op.run env self = .ok value after) :
    (op.reach env self).toOption.isSome = true := by
  have through : ∀ {address : Address} {slot : U256} {β : Type}
      {next : ResolvedStorage × AccessStatus → Method β},
      (discard (reachStorage env address slot >>= next) : Method Unit) self = .ok value after →
      ((discard (reachStorage env address slot) : Method Unit) self).toOption.isSome = true := by
    intro address slot β next ran
    have isOk : ((discard (reachStorage env address slot >>= next) : Method Unit)
        self).toOption.isSome = true := by
      rw [ran]
      rfl
    rw [discard_isSome] at isOk ⊢
    rw [Action.bind_run] at isOk
    cases outcome : reachStorage env address slot self with
    | ok reached state => rfl
    | _ =>
        rw [outcome] at isOk
        cases isOk
  cases op with
  | loadStorage address slot =>
      rw [Op.run, loadStorage_eq] at ran
      exact through ran
  | storeStorage address slot value =>
      rw [Op.run, storeStorage_eq] at ran
      exact through ran
  | _ =>
      rw [Op.reach]
      · rw [ran]
        rfl
      · exact fun _ _ same => nomatch same
      · exact fun _ _ _ same => nomatch same

theorem reachStorage_covers {slot : U256}
    (reached : (reachStorage env address slot self).toOption.isSome = true) :
    self.Covers env (.slot ⟨address, slot⟩) := by
  cases outcome : reachStorage env address slot self with
  | ok value state =>
      obtain ⟨resolved, _, required, -⟩ := Action.bind_eq_ok.mp outcome
      exact requireStorage_covers required
  | _ =>
      rw [outcome] at reached
      cases reached

theorem ends_of_discard (ends : Nested.EndsIn ((discard body : Method Unit) self) after) :
    (∃ value, body self = .ok value after) ∨ ∃ error, body self = .fail error after := by
  have run : (discard body : Method Unit) self = _ := Action.map_run _ body self
  rw [run] at ends
  cases outcome : body self with
  | illegal =>
      rw [outcome] at ends
      rcases ends with ⟨_, same⟩ | ⟨_, same⟩ <;> cases same
  | ok value state =>
      rw [outcome] at ends
      rcases ends with ⟨_, same⟩ | ⟨_, same⟩ <;> cases same
      exact .inl ⟨value, rfl⟩
  | fail error state =>
      rw [outcome] at ends
      rcases ends with ⟨_, same⟩ | ⟨_, same⟩ <;> cases same
      exact .inr ⟨error, rfl⟩

/-- A call on a key that the world does not cover fails before it warms, or passes over it. -/
theorem Op.run_passes (named : op.warms = some key) (sound : Sound env self)
    (foreign : ¬self.Covers env key) (ends : Nested.EndsIn (op.run env self) after) :
    Extends env self after [] := by
  have stays : op.run env self = .ok () self → Extends env self after [] := by
    intro passes
    rw [passes] at ends
    rcases ends with ⟨_, same⟩ | ⟨_, same⟩ <;> cases same
    exact .refl sound.journaled
  cases op with
  | accessAccount address =>
      cases named
      have reports := accessAccount_reports address sound
      rcases ends_of_discard ends with ⟨status, ran⟩ | ⟨error, ran⟩
      · obtain ⟨id, _, required, -⟩ := Action.bind_eq_ok.mp ran
        exact absurd (requireAccount_covers required) foreign
      · rw [ran] at reports
        exact reports
  | warmAccount address =>
      cases named
      exact stays (warmAccount_passes foreign)
  | warmStorage address slot =>
      cases named
      refine stays ?_
      rw [Op.run, WorldState.warmStorage, Action.bind_run, warmStorageAddress_passes foreign]
      rfl
  | accessStorage address slot =>
      cases named
      refine stays ?_
      have passes := accessStorage_passes foreign
      have run : (Op.accessStorage address slot).run env self = _ := Action.map_run _ _ self
      rw [run, passes]
  | loadStorage address slot =>
      cases named
      have reports := loadStorage_reports address slot sound
      rw [Bool.eq_false_of_not_eq_true fun reached => foreign (reachStorage_covers reached)] at reports
      rcases ends_of_discard ends with ⟨result, ran⟩ | ⟨error, ran⟩
      · rw [loadStorage_eq] at ran
        obtain ⟨reached, _, outcome, -⟩ := Action.bind_eq_ok.mp ran
        exact absurd (reachStorage_covers (by rw [outcome]; rfl)) foreign
      · rw [ran] at reports
        exact reports
  | storeStorage address slot value =>
      cases named
      have reports := storeStorage_reports address slot value sound
      rw [Bool.eq_false_of_not_eq_true fun reached => foreign (reachStorage_covers reached)] at reports
      rcases ends_of_discard ends with ⟨result, ran⟩ | ⟨error, ran⟩
      · rw [storeStorage_eq] at ran
        obtain ⟨reached, _, outcome, -⟩ := Action.bind_eq_ok.mp ran
        exact absurd (reachStorage_covers (by rw [outcome]; rfl)) foreign
      · rw [ran] at reports
        exact reports
  | _ => cases named

/-- What a call leaves of warmth, by whether it got as far as its warming. -/
theorem Op.run_warms (named : op.warms = some key) (sound : Sound env self)
    (ends : Nested.EndsIn (op.run env self) after) :
    if op.Warmed env key self then Adds env key self after else Extends env self after [] := by
  by_cases covers : self.Covers env key
  · have reaches := Op.run_reaches named sound covers
    rcases ends with ⟨value, ran⟩ | ⟨error, ran⟩
    · rw [if_pos ⟨covers, Op.reach_of_run ran⟩]
      rw [ran] at reaches
      exact reaches
    · rw [ran] at reaches
      by_cases reached : (op.reach env self).toOption.isSome = true
      · rw [if_pos ⟨covers, reached⟩]
        exact (if_pos reached).mp reaches
      · rw [if_neg fun warmed => reached warmed.2]
        exact (if_neg reached).mp reaches
  · rw [if_neg fun warmed => covers warmed.1]
    exact Op.run_passes named sound covers ends

/-! ## The other calls -/

/-- Nothing that warmth is kept in has changed. -/
theorem Extends.same (journaled : Journaled env self) (world : after.world = self.world)
    (deferred : after.deferredWarmth = self.deferredWarmth)
    (transaction : after.lifetime.transaction = self.lifetime.transaction)
    (journal : ∃ newer, after.journal = newer ++ self.journal ∧
      ∀ entry ∈ newer, entry.isWarming = false) : Extends env self after [] := by
  obtain ⟨newer, journal, aside⟩ := journal
  have marks : ∀ entry, after.Marked entry ↔ self.Marked entry := by
    intro entry
    cases entry <;> simp only [Marked, accountStamp, slotStamp, world, deferred, transaction]
  have keys : ∀ entry, after.warmKeyOf entry = self.warmKeyOf entry := by
    intro entry
    cases entry <;> simp only [warmKeyOf, slotOf, world, deferred]
  have warmings : ∀ entry, entry ∈ after.journal ∧ entry.isWarming = true ↔
      entry ∈ self.journal ∧ entry.isWarming = true := by
    intro entry
    refine and_congr_left fun warming => ?_
    rw [journal, List.mem_append]
    refine or_iff_right fun member => ?_
    rw [aside entry member] at warming
    cases warming
  have once : after.journal.filter Entry.isWarming = self.journal.filter Entry.isWarming := by
    have none : newer.filter Entry.isWarming = [] := by
      rw [List.filter_eq_nil_iff]
      intro entry member
      rw [aside entry member]
      exact Bool.false_ne_true
    rw [journal, List.filter_append, none]
    rfl
  refine ⟨⟨fun entry => ?_, ?_, fun entry member warming => ?_, fun closed => ?_⟩, transaction,
    ⟨newer, journal, warmKeys_aside aside⟩, fun older _ => warmKeys_congr fun entry _ => keys entry⟩
  · rw [marks, journaled.marked, warmings]
  · rw [once]
    exact journaled.once
  · rw [keys]
    exact journaled.keyed entry ((warmings entry).mp ⟨member, warming⟩).1 warming
  · rw [deferred]
    exact journaled.deferred closed

/-- Rolling back to where the journal was. -/
theorem Extends.unwound {inner : WorldState} {keys : List WarmKey} {newer : Journal}
    {held : Checkpoint} (grown : Extends env self inner keys) (sound : Sound env self)
    (journal : inner.journal = newer ++ self.journal)
    (length : held.journalLen = self.journal.length)
    (ran : revertJournalTo held.journalLen inner.flagged = .ok () mid) :
    Extends env self (rewoundTo held mid) [] := by
  have innerSound := grown.sound sound
  have flagged : Extends env inner inner.flagged [] :=
    .same grown.journaled rfl rfl rfl ⟨[], rfl, fun _ member => nomatch member⟩
  have control := revertJournalTo_control ran
  have left : mid.journal = self.journal := by
    have below_ := revertJournalTo_journal ran
    have same : inner.flagged.journal = newer ++ self.journal := journal
    rw [same, length, below_push (Nat.le_refl _), below_self] at below_
    exact below_
  have pops : popEntries (inner.flagged.journal.length - held.journalLen) inner.flagged =
      .ok () mid := ran
  obtain ⟨journaled, keys⟩ := flagged.journaled.unwound innerSound.begun pops
  have drop : inner.flagged.journal.drop (inner.flagged.journal.length - held.journalLen) =
      self.journal := (popEntries_journal pops).symm.trans left
  rw [drop] at keys
  have restored : Extends env self mid [] := by
    refine ⟨journaled, ?_, ⟨[], left, rfl⟩, fun older within => ?_⟩
    · exact (congrArg Lifetimes.transaction control.lifetime).trans grown.transaction
    · rw [keys older within, flagged.kept older, grown.kept older within]
      intro entry member
      rw [journal]
      exact List.mem_append_right _ (within entry member)
  have closed : Extends env mid (rewoundTo held mid) [] :=
    .same journaled rfl rfl rfl ⟨[], rfl, fun _ member => nomatch member⟩
  exact restored.trans closed

theorem Finalized.grown (finalized : Finalized env self after) (sound : Sound env self) :
    Extends env self after [] := by
  have opens : Extends env self (opened self) [] :=
    .same sound.journaled rfl rfl rfl ⟨[], rfl, fun _ member => nomatch member⟩
  cases finalized with
  | nothing => exact .refl sound.journaled
  | settled running steps closes =>
      obtain ⟨-, rfl⟩ := commitCheckpoint_ran closes
      rename_i inner
      have grown := opens.trans (Assigned.grown steps (opens.sound sound))
      have closed : Extends env inner (committed (mark self).parentScope inner) [] :=
        .same grown.journaled rfl rfl rfl ⟨[], rfl, fun _ member => nomatch member⟩
      exact grown.trans closed
  | abandoned running steps closes =>
      obtain ⟨-, mid, unwound, rfl⟩ := revertToCheckpoint_ran closes
      rename_i inner
      have grown := opens.trans (Assigned.grown steps (opens.sound sound))
      obtain ⟨newer, journal, -⟩ := grown.journal
      exact grown.unwound sound journal rfl unwound

/-- Every other call leaves warmth alone. -/
theorem Op.run_aside (unnamed : op.warms = none) (sound : Sound env self)
    (ends : Nested.EndsIn (op.run env self) after) : Extends env self after [] := by
  cases op with
  | finalizeLifecycle rules => exact (finalizeLifecycle_finalized ends).grown sound
  | setTransientStorage address slot value =>
      have write := @setTransientStorage_run env address slot value self
      have ran : Nested.EndsIn (WorldState.setTransientStorage env address slot value self) after := ends
      generalize WorldState.setTransientStorage env address slot value self = outcome at write ran
      cases write with
      | illegal => rcases ran with ⟨_, same⟩ | ⟨_, same⟩ <;> cases same
      | same running same =>
          rcases ran with ⟨_, same⟩ | ⟨_, same⟩ <;> cases same
          exact .refl sound.journaled
      | refused running error requests =>
          rcases ran with ⟨_, same⟩ | ⟨_, same⟩ <;> cases same
          exact asked_extends requests sound
      | wrote running changes requests =>
          rcases ran with ⟨_, same⟩ | ⟨_, same⟩ <;> cases same
          exact .same sound.journaled rfl rfl rfl ⟨[_], rfl, fun entry member => by
            rw [List.mem_singleton.mp member]
            rfl⟩
  | clearTransientStorage =>
      rcases clearTransientStorage_run self with stuck | ⟨running, clears⟩
      · have ran : Nested.EndsIn (WorldState.clearTransientStorage self) after := ends
        rw [stuck] at ran
        rcases ran with ⟨_, same⟩ | ⟨_, same⟩ <;> cases same
      · have ran : Nested.EndsIn (WorldState.clearTransientStorage self) after := ends
        rw [clears] at ran
        rcases ran with ⟨_, same⟩ | ⟨_, same⟩ <;> cases same
        exact .same sound.journaled rfl rfl rfl ⟨[], rfl, fun _ member => nomatch member⟩
  | accessAccount => cases unnamed
  | warmAccount => cases unnamed
  | warmStorage => cases unnamed
  | accessStorage => cases unnamed
  | loadStorage => cases unnamed
  | storeStorage => cases unnamed
  | _ =>
      refine Assigned.grown (ends_of_safe (Op.run_assigned _ ?_) trivial ends) sound
      trivial

end WorldState

end EvmZig.State
