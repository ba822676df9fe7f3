import EvmZig.Execution.StorageOps
import EvmZig.State.Cooled

/-!
# The two paths of a storage instruction

Where the gas covers the dearest access, one host call accesses the slot and
reads or writes it; elsewhere the access is paid for first.  From the same site
both paths return the same and leave the same, at every gas the access is paid
for by the warmth of the slot, and no slot is read unpaid.
-/

set_option autoImplicit false

namespace EvmZig.Execution

open Zig Lib
open State (Env Method StateError StorageStatus AccessStatus WorldState WarmKey TransientKey Config
  Genesis StorageRow)
open State.WorldState

variable {revision : Transaction.Revision} {status : AccessStatus} {before after : WorldState}
  {genesis : Genesis} {config : Config}

namespace StorageOps

/-! ## States alike -/

/-- The same keys are warm, all slots hold and are measured against the same values, and the same
rows were observed. -/
structure Alike (env : Env) (left right : WorldState) : Prop where
  isWarm : ∀ key, left.isWarm env key = right.isWarm env key
  value : ∀ address slot, left.storageValue env address slot = right.storageValue env address slot
  original : ∀ address slot,
    left.originalValue env address slot = right.originalValue env address slot
  observedAccounts : left.observedAccounts = right.observedAccounts
  observedStorage : left.observedStorage = right.observedStorage

/-- No row was admitted and none observed. -/
structure Unread (before after : WorldState) : Prop where
  accounts : ∀ id, after.world.accounts.key id = before.world.accounts.key id
  storage : ∀ id, after.world.storage.key id = before.world.storage.key id
  observedAccounts : after.observedAccounts = before.observedAccounts
  observedStorage : after.observedStorage = before.observedStorage

section Cooled

variable {env : Env} {self left right after : WorldState}

theorem storageAt_cooled (self : WorldState) (address : Address) (slot : U256) :
    self.cooled.storageAt env address slot = (self.storageAt env address slot).cooled := by
  have same : self.cooled.world.accounts = self.world.accounts := rfl
  rw [storageAt, storageAt, same]
  cases self.world.accounts.find address with
  | none => rfl
  | some account =>
      have held : self.cooled.world.storage.value { account, slot } =
          (self.world.storage.value { account, slot }).map StorageRow.cooled :=
        Table.value_mapRows _ _ _
      rw [Option.bind_some, Option.bind_some, held]
      cases self.world.storage.value { account, slot } <;> rfl

theorem storageValue_cooled (self : WorldState) (address : Address) (slot : U256) :
    self.cooled.storageValue env address slot = self.storageValue env address slot := by
  rw [storageValue, storageAt_cooled]
  rfl

theorem originalValue_cooled (self : WorldState) (address : Address) (slot : U256) :
    self.cooled.originalValue env address slot = self.originalValue env address slot := by
  rw [originalValue, storageAt_cooled, storageValue_cooled]
  rfl

theorem alike_of_cooled (same : left.cooled = right.cooled)
    (warm : ∀ key, left.isWarm env key = right.isWarm env key) : Alike env left right where
  isWarm := warm
  value address slot := by rw [← storageValue_cooled, same, storageValue_cooled]
  original address slot := by rw [← originalValue_cooled, same, originalValue_cooled]
  observedAccounts := congrArg (·.observedAccounts) same
  observedStorage := congrArg (·.observedStorage) same

theorem storageKey_cooled (same : after.cooled = self.cooled) (id : State.StorageId) :
    after.world.storage.key id = self.world.storage.key id := by
  have keys := congrArg (fun state : WorldState => state.world.storage.key id) same
  simpa only [cooled, Table.key_mapRows] using keys

theorem unread_of_cooled (same : after.cooled = self.cooled) : Unread self after := by
  have accounts : after.world.accounts = self.world.accounts := congrArg (·.world.accounts) same
  exact ⟨fun id => by rw [accounts], storageKey_cooled same, congrArg (·.observedAccounts) same,
    congrArg (·.observedStorage) same⟩

theorem keepsSlots_of_cooled (same : after.cooled = self.cooled) :
    KeepsSlots env Nowhere self after where
  value address slot _ := by rw [← storageValue_cooled, same, storageValue_cooled]
  original address slot := by rw [← originalValue_cooled, same, originalValue_cooled]
  accountKey id _ key := ((unread_of_cooled same).accounts id).trans key
  storageKey id _ key := ((unread_of_cooled same).storage id).trans key

theorem housed_of_cooled (same : after.cooled = self.cooled) (housed : Housed self) : Housed after := by
  have unread := unread_of_cooled same
  intro id key held
  rw [unread.storage] at held
  rw [unread.accounts]
  exact housed id key held

theorem executing_of_cooled (same : after.cooled = self.cooled) (executing : Executing self) :
    Executing after := by
  have control : after.control = self.control := congrArg (·.control) same
  exact executing.same control

theorem covers_of_cooled {key : TransientKey} (same : after.cooled = self.cooled)
    (covers : after.Covers env (.slot key)) : self.Covers env (.slot key) := by
  have accounts : after.world.accounts = self.world.accounts := congrArg (·.world.accounts) same
  refine covers.imp id fun ⟨account, found, stored⟩ => ⟨account, ?_, ?_⟩
  · rw [findAccount, ← accounts]
    exact found
  · rw [← findStorage_cooled, ← same, findStorage_cooled]
    exact stored

theorem Resolves.cooled {resolved : ResolvedStorage} {address : Address} {slot : U256}
    (same : after.cooled = self.cooled) (resolves : Resolves resolved address slot self) :
    Resolves resolved address slot after :=
  ⟨((unread_of_cooled same).accounts _).trans resolves.1, (storageKey_cooled same _).trans resolves.2⟩

end Cooled

/-! ## What the calls report -/

section Calls

variable {α : Type} {env : Env} {self after last : WorldState} {recipient : Address}
  {key value : U256}

/-- What an access to the slot reports. -/
def warmth (env : Env) (state : WorldState) (address : Address) (key : U256) : AccessStatus :=
  if state.isWarm env (.slot ⟨address, key⟩) then .warm else .cold

/-- The status of an access, and what it left warm. -/
structure Accessed (env : Env) (recipient : Address) (key : U256) (status : AccessStatus)
    (before after : WorldState) : Prop where
  status : status = warmth env before recipient key
  isWarm : ∀ named, after.isWarm env named =
    (decide (named = .slot ⟨recipient, key⟩) || before.isWarm env named)
  sound : Sound env after

theorem warmth_of_flag (flag : decide (status = .cold) = !self.isWarm env (.slot ⟨recipient, key⟩)) :
    status = warmth env self recipient key := by
  unfold warmth
  cases warm : self.isWarm env (.slot ⟨recipient, key⟩) with
  | true =>
      rw [warm] at flag
      cases status with
      | warm => rfl
      | cold => cases flag
  | false =>
      rw [warm] at flag
      exact of_decide_eq_true flag

theorem accessed_of_adds (sound : Sound env self)
    (adds : Adds env (.slot ⟨recipient, key⟩) self after)
    (flag : decide (status = .cold) = !self.isWarm env (.slot ⟨recipient, key⟩)) :
    Accessed env recipient key status self after where
  status := warmth_of_flag flag
  sound := adds.sound sound
  isWarm named := by
    have same : named = .slot ⟨recipient, key⟩ → after.isWarm env named = true := by
      rintro rfl
      exact adds.isWarm sound
    by_cases here : named = .slot ⟨recipient, key⟩
    · rw [same here, decide_eq_true here]
      rfl
    · rw [decide_eq_false here, Bool.false_or]
      rcases adds with grown | ⟨-, grown⟩
      · rw [Bool.eq_iff_iff, grown.journaled.isWarm_iff, sound.journaled.isWarm_iff, grown.warmKeys,
          List.singleton_append, List.mem_cons]
        exact or_iff_right here
      · exact grown.isWarm sound named

/-- A closed world reports a slot it does not have as cold, and so it is. -/
theorem accessStorage_status (sound : Sound env self)
    (ran : accessStorage env recipient key self = .ok status after) :
    status = warmth env self recipient key := by
  by_cases covers : self.Covers env (.slot ⟨recipient, key⟩)
  · have reports := accessStorage_reports ⟨recipient, key⟩ sound covers
    rw [ran] at reports
    exact warmth_of_flag reports.2
  · rw [@accessStorage_passes env self ⟨recipient, key⟩ covers] at ran
    cases ran
    exact (if_neg fun warm => covers (isWarm_covers warm)).symm

theorem accessStorage_accessed (sound : Sound env self)
    (covers : self.Covers env (.slot ⟨recipient, key⟩))
    (ran : accessStorage env recipient key self = .ok status after) :
    Accessed env recipient key status self after := by
  have reports := accessStorage_reports ⟨recipient, key⟩ sound covers
  rw [ran] at reports
  exact accessed_of_adds sound reports.1 reports.2

theorem accessStorage_cooled (executing : Executing self)
    (ran : accessStorage env recipient key self = .ok status after) :
    after.cooled = self.cooled := by
  have silent := @accessStorage_silent env self executing recipient key
  rw [ran] at silent
  exact silent.forget

theorem aside_of_discard {body : Method α} {op : Op} {result : α}
    (runs : op.run env = discard body) (unnamed : op.warms = none) (sound : Sound env self)
    (ran : body self = .ok result after) : Extends env self after [] := by
  have run : (discard body : Method Unit) self = _ := Action.map_run _ body self
  rw [ran] at run
  exact Op.run_aside unnamed sound (.inl ⟨(), by rw [runs, run]⟩)

/-- A host call that accesses a slot and reaches it, and the call that only reaches it. -/
structure SlotCall (env : Env) (recipient : Address) (key : U256)
    (host : Method (α × AccessStatus)) (body : Method α) : Prop where
  meets : ∀ {start left right}, Executing left → (coolness env start).Alike left right →
    (coolness env start).Meets (fun one two => one.1 = two) (host left) (body right)
  accessed : ∀ {before after result}, Sound env before → host before = .ok result after →
    Accessed env recipient key result.2 before after
  aside : ∀ {before after result}, Sound env before → body before = .ok result after →
    Extends env before after []
  covers : ∀ {before after result}, body before = .ok result after →
    before.Covers env (.slot ⟨recipient, key⟩)

theorem load_slotCall : SlotCall env recipient key (loadStorage env recipient key)
    (getStorage env recipient key) where
  meets executing alike := by
    rw [loadStorage_reach, getStorage_reach (executing_of_cooled alike.forget.symm executing)]
    exact reach_meets readResolvedStorage_blind executing alike recipient key
  accessed sound ran := by
    have reports := loadStorage_reports recipient key sound
    rw [ran] at reports
    exact accessed_of_adds sound reports.1 reports.2
  aside sound ran := @aside_of_discard _ env _ _ _ (.getStorage recipient key) _ rfl rfl sound ran
  covers ran := by
    unfold getStorage at ran
    obtain ⟨resolved, final, requires, -⟩ := Action.bind_eq_ok.mp ran
    exact requireStorage_covers requires

theorem store_slotCall : SlotCall env recipient key (storeStorage env recipient key value)
    (setStorage env recipient key value) where
  meets executing alike := by
    rw [storeStorage_reach, setStorage_reach]
    exact reach_meets (fun resolved => setResolvedStorage_blind resolved value) executing alike
      recipient key
  accessed sound ran := by
    have reports := storeStorage_reports recipient key value sound
    rw [ran] at reports
    exact accessed_of_adds sound reports.1 reports.2
  aside sound ran := @aside_of_discard _ env _ _ _ (.setStorage recipient key value) _ rfl rfl sound ran
  covers ran := by
    unfold setStorage at ran
    obtain ⟨resolved, final, requires, -⟩ := Action.bind_eq_ok.mp ran
    exact requireStorage_covers requires

/-- The access, then the call that only reaches the slot, together access it. -/
theorem SlotCall.split {host : Method (α × AccessStatus)} {body : Method α} {mid : WorldState}
    {result : α} (call : SlotCall env recipient key host body) (executing : Executing self)
    (sound : Sound env self) (accessed : accessStorage env recipient key self = .ok status mid)
    (ran : body mid = .ok result after) : Accessed env recipient key status self after := by
  have same := accessStorage_cooled executing accessed
  have covers := covers_of_cooled same (call.covers ran)
  have first := accessStorage_accessed sound covers accessed
  have rest := call.aside first.sound ran
  exact ⟨first.status, fun named => (rest.isWarm first.sound named).trans (first.isWarm named),
    rest.sound first.sound⟩

/-! ## Values -/

/-- What a read of the slot returns is what the slot holds. -/
theorem readResolvedStorage_value {resolved : ResolvedStorage} {result : U256}
    (resolves : Resolves resolved recipient key self)
    (ran : readResolvedStorage env resolved self = .ok result after) :
    after.storageValue env recipient key = result := by
  have kept : Keeps (assignments env .call) (Resolves resolved recipient key)
      (readResolvedStorage env resolved)
      fun value after => after.storageValue env recipient key = value := by
    refine Keeps.bind (resolves_of_safe (observeStorage_assigned resolved _).safe) fun _ =>
      (resolvedValue_reads resolved).weaken ?_
    rintro value last ⟨account, row, accountHeld, held, rfl, resolves⟩
    rw [storageValue, resolves.accountAt_eq accountHeld, resolves.storageAt_eq held]
  have value := kept self trivial resolves
  rw [ran] at value
  exact value.2.2

theorem reach_resolves {body : ResolvedStorage → Method α} {result : α} (executing : Executing self)
    (ran : reach env recipient key body self = .ok result after) : ∃ resolved mid,
      Executing mid ∧ Resolves resolved recipient key mid ∧ body resolved mid = .ok result after := by
  unfold reach at ran
  obtain ⟨resolved, first, requires, rest⟩ := Action.bind_eq_ok.mp ran
  obtain ⟨_, second, observes, rest⟩ := Action.bind_eq_ok.mp rest
  have required := @requireStorage_assigned env .call recipient key self trivial trivial
  rw [requires] at required
  obtain ⟨-, steps, resolves⟩ := required
  have observed := @resolves_of_safe env Unit resolved recipient key _
    (observeAccount_safe_assigned resolved.account { accessed := true }) first trivial resolves
  rw [observes] at observed
  obtain ⟨-, steps', resolves⟩ := observed
  exact ⟨resolved, second, (executing.same (Assigned.control steps)).same (Assigned.control steps'),
    resolves, rest⟩

theorem getStorage_value {result : U256} (executing : Executing self)
    (ran : getStorage env recipient key self = .ok result after) :
    after.storageValue env recipient key = result := by
  rw [getStorage_reach executing] at ran
  obtain ⟨resolved, mid, -, resolves, reads⟩ := reach_resolves executing ran
  exact readResolvedStorage_value resolves reads

theorem loadStorage_value {result : U256 × AccessStatus} (executing : Executing self)
    (ran : loadStorage env recipient key self = .ok result after) :
    after.storageValue env recipient key = result.1 := by
  rw [loadStorage_reach] at ran
  obtain ⟨resolved, mid, within, resolves, rest⟩ := reach_resolves executing ran
  obtain ⟨status, accessed, accesses, rest⟩ := Action.bind_eq_ok.mp rest
  obtain ⟨value, read, reads, ends⟩ := Action.bind_eq_ok.mp rest
  cases ends
  have silent : Silent env mid.requests mid (accessResolvedStorage env resolved mid) :=
    (warmStorageId_silent within resolves.place ⟨rfl, Nat.le_refl _, Nat.le_refl _⟩).bind
      fun _ _ _ alike => alike
  rw [accesses] at silent
  exact readResolvedStorage_value (Resolves.cooled silent.forget resolves) reads

end Calls

/-! ## Agreement -/

section Paths

variable {α : Type} {env : Env} {spec : StorageSpec} {recipient : Address} {key value : U256}
  {site left right last : StorageSite} {host : Method (α × AccessStatus)} {body : Method α}
  {charge : AccessStatus → Action CallFrame Empty Bool} {price : AccessStatus → Int}

/-- Every request from this state on is granted. -/
def Granted (env : Env) (state : WorldState) : Prop :=
  ∀ asked, state.requests ≤ asked → env.grants asked = true

/-- Two steps that both return have the same result and frame, and leave states alike where the
result has a value; with every request granted one returns it where the other does. -/
structure Agree {β : Type} (env : Env) (valued : β → Prop) (one two : StorageStep β)
    (site : StorageSite) : Prop where
  same : ∀ found found' left right, one site = .ok found left → two site = .ok found' right →
    found = found' ∧ left.frame = right.frame ∧ (valued found → Alike env left.state right.state)
  returns : Granted env site.state → ∀ found, valued found →
    ((∃ left, one site = .ok found left) ↔ ∃ right, two site = .ok found right)

/-- Whatever an order returns, the access was settled at its price. -/
def Charged (price : Int) (order : StorageStep (Option α)) (site : StorageSite) : Prop :=
  ∀ found last, order site = .ok found last → Settled price site.frame last.frame found.isSome

theorem not_denied {start : Nat} (granted : ∀ asked, start ≤ asked → env.grants asked = true) :
    ¬(coolness env start).denied := by
  rintro ⟨asked, late, refused⟩
  rw [granted asked late] at refused
  cases refused

theorem orders_agree (call : SlotCall env recipient key host body) (sound : Sound env site.state)
    (executing : Executing site.state) :
    Agree env (· ≠ none) (fusedOrder host charge)
      (splitOrder (accessStorage env recipient key) charge body) site := by
  have silent := @accessStorage_silent env site.state executing recipient key
  constructor
  · intro found found' left right fused split
    obtain ⟨one, status, paid, reads, pays, rfl⟩ := fusedOrder_ok.mp fused
    obtain ⟨status', mid, paid', accesses, pays', rest⟩ := splitOrder_ok.mp split
    have accessed := call.accessed sound reads
    obtain rfl : status = status' := accessed.status.trans (accessStorage_status sound accesses).symm
    rw [pays] at pays'
    obtain ⟨rfl, frames⟩ := Outcome.ok.inj pays'
    cases paid with
    | false =>
        obtain ⟨-, rfl⟩ := rest
        exact ⟨rfl, frames, fun some => (some rfl).elim⟩
    | true =>
        obtain ⟨two, reads', rfl⟩ := rest
        rw [accesses] at silent
        have meets := call.meets executing ⟨silent.forget.symm, silent.right, silent.left⟩
        rw [reads, reads'] at meets
        obtain ⟨values, alike⟩ := meets
        obtain rfl : one = two := values
        have accessed' := call.split executing sound accesses reads'
        exact ⟨rfl, frames, fun _ => alike_of_cooled alike.forget fun named =>
          (accessed.isWarm named).trans (accessed'.isWarm named).symm⟩
  · intro granted found valued
    obtain ⟨found, rfl⟩ := Option.ne_none_iff_exists'.mp valued
    have answered := not_denied granted
    obtain ⟨status, mid, accesses⟩ := silent.returns answered
    rw [accesses] at silent
    have meets := call.meets executing ⟨silent.forget.symm, silent.right, silent.left⟩
    have priced := accessStorage_status sound accesses
    constructor
    · rintro ⟨left, fused⟩
      obtain ⟨one, status', paid, reads, pays, same⟩ := fusedOrder_ok.mp fused
      obtain rfl : status' = status := (call.accessed sound reads).status.trans priced.symm
      cases paid with
      | false => cases same
      | true =>
          cases same
          obtain ⟨two, after, reads', values⟩ := meets.forward answered reads
          obtain rfl : found = two := values
          exact ⟨⟨left.frame, after⟩, splitOrder_ok.mpr
            ⟨status', mid, true, accesses, pays, found, reads', rfl⟩⟩
    · rintro ⟨right, split⟩
      obtain ⟨status', mid', paid, accesses', pays, rest⟩ := splitOrder_ok.mp split
      rw [accesses] at accesses'
      obtain ⟨rfl, rfl⟩ := Outcome.ok.inj accesses'
      cases paid with
      | false => cases rest.2
      | true =>
          obtain ⟨two, reads', same⟩ := rest
          cases same
          obtain ⟨one, after, reads, values⟩ := meets.backward answered reads'
          obtain rfl : one.1 = found := values
          rw [← (call.accessed sound reads).status.trans priced.symm] at pays
          exact ⟨⟨right.frame, after⟩, fusedOrder_ok.mpr ⟨one.1, one.2, true, reads, pays, rfl⟩⟩

theorem fusedOrder_charged (call : SlotCall env recipient key host body) (sound : Sound env site.state)
    (settles : Settles charge price) :
    Charged (price (warmth env site.state recipient key)) (fusedOrder host charge) site := by
  intro found last ran
  obtain ⟨one, status, paid, reads, pays, rfl⟩ := fusedOrder_ok.mp ran
  rw [← (call.accessed sound reads).status]
  cases paid <;> exact settles _ _ _ _ pays

theorem splitOrder_charged (sound : Sound env site.state)
    (settles : Settles charge price) :
    Charged (price (warmth env site.state recipient key))
      (splitOrder (accessStorage env recipient key) charge body) site := by
  intro found last ran
  obtain ⟨status, mid, paid, accesses, pays, rest⟩ := splitOrder_ok.mp ran
  rw [← accessStorage_status sound accesses]
  cases paid with
  | true =>
      obtain ⟨one, -, rfl⟩ := rest
      exact settles _ _ _ _ pays
  | false =>
      obtain ⟨-, rfl⟩ := rest
      exact settles _ _ _ _ pays

/-- With the gas for its price an order that returns has a value. -/
theorem Agree.always {one two : StorageStep (Option α)} {amount : Int}
    (agree : Agree env (· ≠ none) one two site) (first : Charged amount one site)
    (second : Charged amount two site) (enough : amount ≤ site.frame.gas.gasLeft) :
    Agree env (fun _ => True) one two site := by
  have valued : ∀ {order : StorageStep (Option α)} {found last}, Charged amount order site →
      order site = .ok found last → found ≠ none := by
    rintro order found last charged ran rfl
    exact absurd (charged none last ran).lacks.1 (Int.not_lt.mpr enough)
  refine ⟨fun found found' left right ran ran' => ?_, fun granted found _ => ?_⟩
  · obtain ⟨same, frames, alike⟩ := agree.same found found' left right ran ran'
    exact ⟨same, frames, fun _ => alike (valued first ran)⟩
  · constructor
    · rintro ⟨left, ran⟩
      exact (agree.returns granted found (valued first ran)).mp ⟨left, ran⟩
    · rintro ⟨right, ran⟩
      exact (agree.returns granted found (valued second ran)).mpr ⟨right, ran⟩

/-- SSTORE with its status from the given order. -/
def sstoreThrough (spec : StorageSpec) (order : StorageStep (Option StorageStatus)) :
    StorageStep Unit := do
  let site ← Action.get
  if stopsAtSentry spec site.frame then onFrame (CallFrame.halt .outOfGas)
  else
    match ← order with
    | some status => onFrame (chargeSstore spec status)
    | none => return ()

/-- What follows the status. -/
def afterStatus (spec : StorageSpec) (found : Option StorageStatus) : Action CallFrame Empty Unit :=
  match found with
  | some status => chargeSstore spec status
  | none => pure ()

theorem sstoreThrough_ok {order : StorageStep (Option StorageStatus)} :
    sstoreThrough spec order site = .ok () last ↔
      if stopsAtSentry spec site.frame then
        CallFrame.halt .outOfGas site.frame = .ok () last.frame ∧ last.state = site.state
      else ∃ found mid, order site = .ok found mid ∧
        afterStatus spec found mid.frame = .ok () last.frame ∧ last.state = mid.state := by
  unfold sstoreThrough
  rw [Action.bind_run, Action.get_run]
  dsimp only
  split
  · exact onFrame_ok
  · rw [Action.bind_eq_ok]
    refine exists_congr fun found => exists_congr fun mid => and_congr_right fun _ => ?_
    cases found with
    | some status => exact onFrame_ok
    | none =>
        simp only [afterStatus, Action.pure_run, Outcome.ok.injEq, true_and]
        exact ⟨fun same => ⟨congrArg _ same, congrArg _ same.symm⟩,
          fun ⟨frame, state⟩ => congrArg₂ StorageSite.mk frame state.symm⟩

theorem Agree.through {one two : StorageStep (Option StorageStatus)}
    (agree : Agree env (fun _ => True) one two site) :
    Agree env (fun _ => True) (sstoreThrough spec one) (sstoreThrough spec two) site := by
  constructor
  · intro _ _ left right ran ran'
    have ran := sstoreThrough_ok.mp ran
    have ran' := sstoreThrough_ok.mp ran'
    split at ran
    · rename_i stops
      rw [if_pos stops] at ran'
      rw [ran.2, ran'.2]
      exact ⟨rfl, (Outcome.ok.inj (ran.1.symm.trans ran'.1)).2, fun _ =>
        ⟨fun _ => rfl, fun _ _ => rfl, fun _ _ => rfl, rfl, rfl⟩⟩
    · rename_i passes
      rw [if_neg passes] at ran'
      obtain ⟨found, mid, first, charges, state⟩ := ran
      obtain ⟨found', mid', second, charges', state'⟩ := ran'
      obtain ⟨rfl, frames, alike⟩ := agree.same found found' mid mid' first second
      rw [← frames] at charges'
      rw [state, state']
      exact ⟨rfl, (Outcome.ok.inj (charges.symm.trans charges')).2, fun _ => alike trivial⟩
  · intro granted _ _
    have moved : ∀ {first second : StorageStep (Option StorageStatus)},
        (∀ found, (∃ mid, first site = .ok found mid) → ∃ mid, second site = .ok found mid) →
        (∀ found mid mid', first site = .ok found mid → second site = .ok found mid' →
          mid'.frame = mid.frame) →
        (∃ left, sstoreThrough spec first site = .ok () left) →
          ∃ right, sstoreThrough spec second site = .ok () right := by
      rintro first second answers frames ⟨left, ran⟩
      have ran := sstoreThrough_ok.mp ran
      by_cases stops : stopsAtSentry spec site.frame
      · rw [if_pos stops] at ran
        refine ⟨left, sstoreThrough_ok.mpr ?_⟩
        rw [if_pos stops]
        exact ran
      · rw [if_neg stops] at ran
        obtain ⟨found, mid, reads, charges, -⟩ := ran
        obtain ⟨mid', reads'⟩ := answers found ⟨mid, reads⟩
        refine ⟨⟨left.frame, mid'.state⟩, sstoreThrough_ok.mpr ?_⟩
        rw [if_neg stops]
        refine ⟨found, mid', reads', ?_, rfl⟩
        rw [frames found mid mid' reads reads']
        exact charges
    exact ⟨moved (fun found => (agree.returns granted found trivial).mp) fun found mid mid' ran ran' =>
        (agree.same _ _ _ _ ran ran').2.1.symm,
      moved (fun found => (agree.returns granted found trivial).mpr) fun found mid mid' ran ran' =>
        (agree.same _ _ _ _ ran' ran).2.1⟩

/-! ## The handlers -/

/-- The price of an SLOAD. -/
def loadPrice (cold : Int) (status : AccessStatus) : Int := if status = .cold then cold else 0

theorem chargeColdLoad_settles (cold : Int) : Settles (chargeColdLoad cold) (loadPrice cold) := by
  intro status frame last paid ran
  unfold chargeColdLoad at ran
  unfold loadPrice
  split at ran
  · rename_i isCold
    rw [if_pos isCold]
    exact trackGas_settled ran
  · rename_i isWarm
    cases ran
    rw [if_neg isWarm]
    exact .free

theorem trackGas_settles (spec : StorageSpec) :
    Settles (fun status => CallFrame.trackGas (accessGas spec status)) (accessGas spec) :=
  fun _ _ _ _ ran => trackGas_settled ran

theorem accessGas_dearest {dearest : Int}
    (dear : dearestAccess (storageSpecAt revision) = some dearest) (status : AccessStatus) :
    accessGas (storageSpecAt revision) status ≤ dearest := by
  revert dear
  cases revision <;> cases status <;> intro dear <;> cases dear <;> decide

theorem accessGas_free (free : dearestAccess (storageSpecAt revision) = none)
    (status : AccessStatus) : accessGas (storageSpecAt revision) status = 0 := by
  revert free
  cases revision <;> cases status <;> intro free <;> first | rfl | cases free

theorem loadPrice_dearest {cold : Int}
    (dear : (storageSpecAt revision).sloadColdAccessGas = some cold) (status : AccessStatus) :
    loadPrice ((storageSpecAt revision).sloadColdAccessGas.getD 0) status ≤ cold := by
  revert dear
  cases revision <;> cases status <;> intro dear <;> cases dear <;> decide

/-- What SLOAD returned is what the slot holds; where it returned nothing, nothing was read. -/
inductive Loaded (env : Env) (recipient : Address) (key : U256) (before : WorldState) :
    Option U256 → WorldState → Prop
  | value {value : U256} {after : WorldState} (holds : after.storageValue env recipient key = value) :
      Loaded env recipient key before (some value) after
  | unpaid {after : WorldState} (unread : Unread before after) :
      Loaded env recipient key before none after

theorem sloadAfterPop_reached {found : Option U256} (sound : Sound env site.state)
    (ran : sloadAfterPop env (storageSpecAt revision) recipient key site = .ok found last) :
    Settled (loadPrice ((storageSpecAt revision).sloadColdAccessGas.getD 0)
        (warmth env site.state recipient key)) site.frame last.frame found.isSome ∧
      Reached (loadStorage env recipient key) (accessStorage env recipient key)
        (getStorage env recipient key) site.state found last.state := by
  rw [sloadAfterPop_eq] at ran
  exact storageOrder_ok (chargeColdLoad_settles _)
    (fun reads => (load_slotCall.accessed sound reads).status) (accessStorage_status sound)
    (fun _ dear status => loadPrice_dearest dear status)
    (fun free => by rw [free, loadPrice, Option.getD_none, ite_self]) ran

theorem loaded_of_reached {found : Option U256} (executing : Executing before)
    (reached : Reached (loadStorage env recipient key) (accessStorage env recipient key)
      (getStorage env recipient key) before found after) :
    Loaded env recipient key before found after := by
  cases reached with
  | fused reads => exact .value (loadStorage_value executing reads)
  | split accesses reads =>
      have within := executing_of_cooled (accessStorage_cooled executing accesses) executing
      exact .value (getStorage_value within reads)
  | plain reads => exact .value (getStorage_value executing reads)
  | unpaid accesses => exact .unpaid (unread_of_cooled (accessStorage_cooled executing accesses))

/-- The host calls of a store that got its status. -/
abbrev StoreReached (env : Env) (recipient : Address) (key value : U256) :
    WorldState → Option StorageStatus → WorldState → Prop :=
  Reached (storeStorage env recipient key value) (accessStorage env recipient key)
    (setStorage env recipient key value)

theorem sstoreStatus_ok {found : Option StorageStatus} (sound : Sound env site.state)
    (ran : sstoreStatus env (storageSpecAt revision) recipient key value site = .ok found last) :
    Settled (accessGas (storageSpecAt revision) (warmth env site.state recipient key)) site.frame
        last.frame found.isSome ∧
      StoreReached env recipient key value site.state found last.state := by
  rw [sstoreStatus_eq] at ran
  exact storageOrder_ok (trackGas_settles _)
    (fun reads => (store_slotCall.accessed sound reads).status) (accessStorage_status sound)
    (fun _ dear status => accessGas_dearest dear status) (fun free => accessGas_free free _) ran

/-- What a call that keeps its discipline did, once it returned. -/
theorem keeps_returned {touched : Address → U256 → Prop} {pre : WorldState → Prop}
    {post : α → WorldState → Prop} {call : Method α} {last : WorldState} {result : α}
    (kept : Zig.Keeps (slots env touched) pre call post) (housed : Housed before)
    (holds : pre before) (ran : call before = .ok result last) :
    Housed last ∧ KeepsSlots env touched before last ∧ post result last := by
  have allowed := kept before housed holds
  rw [ran] at allowed
  exact allowed

/-- Every way to the slot keeps what the calls on the way keep. -/
theorem Reached.keeps (touched : Address → U256 → Prop) (post : α → WorldState → Prop) {result : α}
    (executing : Executing before) (housed : Housed before)
    (hostKept : ∀ original current, Slot env recipient key original current before →
      Zig.Keeps (slots env touched) (Slot env recipient key original current) host
        fun result after => post result.1 after)
    (bodyKept : ∀ original current, Slot env recipient key original current before →
      Zig.Keeps (slots env touched) (Slot env recipient key original current) body post)
    (reached : Reached host (accessStorage env recipient key) body before (some result) after) :
    Housed after ∧ KeepsSlots env touched before after ∧ post result after := by
  have here : Slot env recipient key (before.originalValue env recipient key)
      (before.storageValue env recipient key) before := ⟨rfl, rfl⟩
  cases reached with
  | fused ran =>
      have returned := keeps_returned (hostKept _ _ here) housed here ran
      exact returned
  | plain ran => exact keeps_returned (bodyKept _ _ here) housed here ran
  | split accesses ran =>
      have same := accessStorage_cooled executing accesses
      have first := @keepsSlots_of_cooled env _ _ same
      obtain ⟨lastHoused, keeps, holds⟩ := keeps_returned (bodyKept _ _ here)
        (housed_of_cooled same housed)
        ⟨(first.original recipient key).trans here.1, (first.value recipient key id).trans here.2⟩ ran
      exact ⟨lastHoused, (first.widen fun _ _ never => never.elim).trans keeps, holds⟩

/-- A load returns what the slot held. -/
theorem loadReached_value {loaded : U256} (executing : Executing before) (housed : Housed before)
    (reached : Reached (loadStorage env recipient key) (accessStorage env recipient key)
      (getStorage env recipient key) before (some loaded) after) :
    loaded = before.storageValue env recipient key := by
  refine (Reached.keeps Nowhere (fun result _ => result = before.storageValue env recipient key)
    executing
    housed ?_ ?_ reached).2.2
  · rintro original current ⟨-, rfl⟩
    exact (loadStorage_slots recipient key).weaken fun _ _ ends => ends.1
  · rintro original current ⟨-, rfl⟩
    exact (getStorage_slots recipient key).weaken fun _ _ ends => ends.1

/-- A store reports how it moves its slot, moves it, and nothing else. -/
theorem StoreReached.moves {status : StorageStatus}
    (reached : StoreReached env recipient key value before (some status) after)
    (executing : Executing before) (housed : Housed before) :
    Housed after ∧ KeepsSlots env (Only recipient key) before after ∧
      status = State.storageStatus (before.originalValue env recipient key)
        (before.storageValue env recipient key) value ∧
      after.storageValue env recipient key = value := by
  refine Reached.keeps (Only recipient key) (fun status after => status = State.storageStatus
      (before.originalValue env recipient key) (before.storageValue env recipient key) value ∧
    after.storageValue env recipient key = value) executing housed ?_ ?_ reached
  · rintro original current ⟨rfl, rfl⟩
    exact (storeStorage_slots recipient key value).weaken
      fun _ _ ends => ⟨ends.1, ends.2.2⟩
  · rintro original current ⟨rfl, rfl⟩
    exact (setStorage_slots recipient key value).weaken
      fun _ _ ends => ⟨ends.1, ends.2.2⟩

theorem StoreReached.unread (reached : StoreReached env recipient key value before none after)
    (executing : Executing before) : Unread before after := by
  cases reached with
  | unpaid accesses => exact unread_of_cooled (accessStorage_cooled executing accesses)

theorem StoreReached.sound {status : StorageStatus}
    (reached : StoreReached env recipient key value before (some status) after)
    (executing : Executing before) (sound : Sound env before) : Sound env after := by
  cases reached with
  | fused ran => exact (store_slotCall.accessed sound ran).sound
  | plain ran => exact (store_slotCall.aside sound ran).sound sound
  | split accesses ran => exact (store_slotCall.split executing sound accesses ran).sound

/-- How an SSTORE ends: at the sentry, short of its access, or with its write charged. -/
inductive Stored (env : Env) (spec : StorageSpec) (recipient : Address) (key value : U256)
    (site last : StorageSite) : Prop
  | sentry (stops : stopsAtSentry spec site.frame) (halted : last.frame = ranDry site.frame)
      (same : last.state = site.state)
  | unpaid (passes : ¬stopsAtSentry spec site.frame)
      (short : site.frame.gas.gasLeft < accessGas spec (warmth env site.state recipient key))
      (halted : last.frame = ranDry site.frame) (unread : Unread site.state last.state)
  | written {status : StorageStatus} (passes : ¬stopsAtSentry spec site.frame)
      (enough : 0 < accessGas spec (warmth env site.state recipient key) →
        accessGas spec (warmth env site.state recipient key) ≤ site.frame.gas.gasLeft)
      (reached : StoreReached env recipient key value site.state (some status) last.state)
      (charges : chargeSstore spec status
        (takeGas (accessGas spec (warmth env site.state recipient key)) site.frame) =
          .ok () last.frame)

theorem sstoreAfterPop_ok (sound : Sound env site.state) (executing : Executing site.state)
    (ran : sstoreAfterPop env (storageSpecAt revision) recipient key value site = .ok () last) :
    Stored env (storageSpecAt revision) recipient key value site last := by
  unfold sstoreAfterPop at ran
  rw [Action.bind_run, Action.get_run] at ran
  dsimp only at ran
  split at ran
  · rename_i stops
    obtain ⟨halts, same⟩ := onFrame_ok.mp ran
    unfold CallFrame.halt at halts
    obtain ⟨_, _, asserts, halts⟩ := Action.bind_eq_ok.mp halts
    obtain ⟨-, rfl⟩ := Action.assert_eq_ok.mp asserts
    rw [Action.modify_run, Outcome.ok.injEq] at halts
    exact .sentry stops halts.2.symm same
  · rename_i passes
    obtain ⟨found, mid, statuses, rest⟩ := Action.bind_eq_ok.mp ran
    obtain ⟨settled, reached⟩ := sstoreStatus_ok sound statuses
    cases found with
    | none =>
        cases rest
        obtain ⟨short, halted⟩ := settled.lacks
        exact .unpaid passes short halted (StoreReached.unread reached executing)
    | some status =>
        obtain ⟨charges, same⟩ := onFrame_ok.mp rest
        obtain ⟨enough, paid⟩ := settled.pays
        rw [paid] at charges
        rw [← same] at reached
        exact .written passes enough reached charges

end Paths

/-! ## In every run -/

/-- What a run of moves leaves is sound while an attempt runs. -/
theorem exec_warmed {moves : List State.Move}
    (ran : (Config.init genesis).exec genesis.env moves = some config) :
    ∃ store, config.Warmed genesis.env store := by
  have all : ∀ {moves : List State.Move} {first : Config} {store : State.WorldState.WarmSet},
      first.Warmed genesis.env store → first.exec genesis.env moves = some config →
        ∃ store, config.Warmed genesis.env store := by
    intro moves
    induction moves with
    | nil =>
        intro first store warmed ran
        cases ran
        exact ⟨store, warmed⟩
    | cons move moves ih =>
        intro first store warmed ran
        obtain ⟨next, stepped, rest⟩ := Option.bind_eq_some_iff.mp ran
        exact ih (warmed.step (Config.step_cases stepped)) rest
  exact all (.init genesis) ran

theorem exec_sound {moves : List State.Move}
    (ran : (Config.init genesis).exec genesis.env moves = some config)
    (running : Running config.state) : Sound genesis.env config.state := by
  obtain ⟨store, warmed⟩ := exec_warmed ran
  exact (warmed.running running).sound (warmed.stacked.begun running)

theorem exec_housed {moves : List State.Move}
    (faithful : (Config.init genesis).Faithful genesis.env moves)
    (ran : (Config.init genesis).exec genesis.env moves = some config) : Housed config.state := by
  obtain ⟨base, scope, inv⟩ := (Config.exec_sound faithful ran).nested.inv rooted_outermost
  exact inv.stamps.owner

/-- Both paths of both instructions return and leave the same, charge by the warmth of the slot, and
reach it only where that is paid. -/
theorem storagePaths_agree {genesis : Genesis} {moves : List State.Move} {config : Config}
    (ran : (Config.init genesis).exec genesis.env moves = some config)
    (executing : Executing config.state) (revision : Transaction.Revision) (recipient : Address)
    (frame : CallFrame) (key value : U256) :
    let env := genesis.env
    let spec := storageSpecAt revision
    let site : StorageSite := ⟨frame, config.state⟩
    let status := warmth env config.state recipient key
    (∀ cold, spec.sloadColdAccessGas = some cold →
      let fused := sloadFused env recipient cold key
      let split := sloadSplit env recipient cold key
      Agree env (· ≠ none) fused split site ∧
        (cold ≤ frame.gas.gasLeft → Agree env (fun _ => True) fused split site) ∧
        Charged (loadPrice cold status) fused site ∧ Charged (loadPrice cold status) split site ∧
        (∀ loaded last, fused site = .ok (some loaded) last →
          last.state.storageValue env recipient key = loaded) ∧
        ∀ found last, split site = .ok found last →
          Loaded env recipient key config.state found last.state) ∧
    (∀ dearest, dearestAccess spec = some dearest →
      let fused := sstoreFused env spec recipient key value
      let split := sstoreSplit env spec recipient key value
      Agree env (· ≠ none) fused split site ∧
        (dearest ≤ frame.gas.gasLeft →
          Agree env (fun _ => True) (sstoreThrough spec fused) (sstoreThrough spec split) site) ∧
        Charged (accessGas spec status) fused site ∧ Charged (accessGas spec status) split site ∧
        ∀ last, split site = .ok none last → Unread config.state last.state) ∧
    (∀ found last, sloadAfterPop env spec recipient key site = .ok found last →
      Settled (loadPrice (spec.sloadColdAccessGas.getD 0) status) frame last.frame found.isSome ∧
        Loaded env recipient key config.state found last.state) ∧
    (∀ last, sstoreAfterPop env spec recipient key value site = .ok () last →
      Stored env spec recipient key value site last) ∧
    ((Config.init genesis).Faithful env moves →
      (∀ loaded last, sloadAfterPop env spec recipient key site = .ok (some loaded) last →
        loaded = config.state.storageValue env recipient key) ∧
      ∀ written last, sstoreStatus env spec recipient key value site = .ok (some written) last →
        written = State.storageStatus (config.state.originalValue env recipient key)
            (config.state.storageValue env recipient key) value ∧
          last.state.storageValue env recipient key = value) := by
  intro env spec site status
  have sound := exec_sound ran executing.running
  refine ⟨?_, ?_, ?_, ?_, ?_⟩
  · intro cold dear fused split
    have agree := @orders_agree _ env recipient key site _ _ (chargeColdLoad cold) load_slotCall sound
      executing
    have first := @fusedOrder_charged _ env recipient key site _ _ _ _ load_slotCall sound
      (chargeColdLoad_settles cold)
    have second := @splitOrder_charged _ env recipient key site (getStorage env recipient key) _ _ sound
      (chargeColdLoad_settles cold)
    rw [← sloadFused_eq] at agree first
    rw [← sloadSplit_eq] at agree second
    refine ⟨agree, fun enough => ?_, first, second, ?_, ?_⟩
    · have bound := loadPrice_dearest dear status
      rw [dear, Option.getD_some] at bound
      exact agree.always first second (Int.le_trans bound enough)
    · intro loaded last ran
      rw [show fused = _ from sloadFused_eq cold] at ran
      obtain ⟨one, reported, paid, reads, pays, same⟩ := fusedOrder_ok.mp ran
      cases paid with
      | false => cases same
      | true =>
          cases same
          exact loadStorage_value executing reads
    · intro found last ran
      rw [show split = _ from sloadSplit_eq cold] at ran
      exact loaded_of_reached executing (splitOrder_reached ran)
  · intro dearest dear fused split
    have agree := @orders_agree _ env recipient key site _ _
      (fun status => CallFrame.trackGas (accessGas spec status))
      (@store_slotCall env recipient key value)
      sound executing
    have first := @fusedOrder_charged _ env recipient key site _ _ _ _
      (@store_slotCall env recipient key value) sound (trackGas_settles spec)
    have second := @splitOrder_charged _ env recipient key site (setStorage env recipient key value)
      _ _ sound (trackGas_settles spec)
    refine ⟨agree, fun enough => ?_, first, second, fun last ran => ?_⟩
    · exact (agree.always first second
        (Int.le_trans (accessGas_dearest dear status) enough)).through
    · have reached : StoreReached env recipient key value site.state none last.state :=
        splitOrder_reached ran
      exact reached.unread executing
  · intro found last ran
    obtain ⟨settled, reached⟩ := sloadAfterPop_reached sound ran
    exact ⟨settled, loaded_of_reached executing reached⟩
  · exact fun last ran => sstoreAfterPop_ok sound executing ran
  · intro faithful
    have housed := exec_housed faithful ran
    refine ⟨fun loaded last ran => ?_, fun written last ran => ?_⟩
    · exact loadReached_value executing housed (sloadAfterPop_reached sound ran).2
    · exact (StoreReached.moves (sstoreStatus_ok sound ran).2 executing housed).2.2

/-- In the first session of a bare world, with a slot stored: it is loaded, and stored again. -/
theorem storagePaths_agree_bare : ∃ (config : Config) (frame : CallFrame)
    (loaded loaded' stored stored' last : StorageSite),
    let env := State.Config.bare.env
    let spec := storageSpecAt .amsterdam
    let recipient := State.Config.addressOf 1
    let site : StorageSite := ⟨frame, config.state⟩
    sloadFused env recipient 2000 5 site = .ok (some 7) loaded ∧
    sloadSplit env recipient 2000 5 site = .ok (some 7) loaded' ∧
    sstoreFused env spec recipient 5 9 site = .ok (some .assigned) stored ∧
    sstoreSplit env spec recipient 5 9 site = .ok (some .assigned) stored' ∧
    loaded.frame = loaded'.frame ∧ Alike env loaded.state loaded'.state ∧
    stored.frame = stored'.frame ∧ Alike env stored.state stored'.state ∧
    sstoreAfterPop env spec recipient 5 9 site = .ok () last ∧
    Stored env spec recipient 5 9 site last := by
  let env := State.Config.bare.env
  let spec := storageSpecAt .amsterdam
  let recipient := State.Config.addressOf 1
  let frame : CallFrame := ⟨.running, ⟨200000, 0, 0, 0, 0⟩, []⟩
  let moves : List State.Move := [.beginAttempt false, .openSession, .call (.setStorage recipient 5 7)]
  have values : ((Config.init State.Config.bare).exec env moves).bind (fun config =>
      (sloadFused env recipient 2000 5 ⟨frame, config.state⟩).toOption.bind fun loaded =>
        (sloadSplit env recipient 2000 5 ⟨frame, config.state⟩).toOption.bind fun loaded' =>
        (sstoreFused env spec recipient 5 9 ⟨frame, config.state⟩).toOption.bind fun stored =>
        (sstoreSplit env spec recipient 5 9 ⟨frame, config.state⟩).toOption.bind fun stored' =>
        (sstoreAfterPop env spec recipient 5 9 ⟨frame, config.state⟩).toOption.map fun _ =>
          (loaded.1, loaded'.1, stored.1, stored'.1, decide (Executing config.state))) =
      some (some 7, some 7, some .assigned, some .assigned, true) := by decide +kernel
  obtain ⟨config, reached, values⟩ := Option.bind_eq_some_iff.mp values
  obtain ⟨⟨_, loaded⟩, loads, values⟩ := Option.bind_eq_some_iff.mp values
  obtain ⟨⟨_, loaded'⟩, loads', values⟩ := Option.bind_eq_some_iff.mp values
  obtain ⟨⟨_, stored⟩, stores, values⟩ := Option.bind_eq_some_iff.mp values
  obtain ⟨⟨_, stored'⟩, stores', values⟩ := Option.bind_eq_some_iff.mp values
  obtain ⟨⟨_, last⟩, settles, values⟩ := Option.map_eq_some_iff.mp values
  simp only [Prod.mk.injEq, decide_eq_true_eq] at values
  obtain ⟨rfl, rfl, rfl, rfl, executing⟩ := values
  have loads := Outcome.toOption_eq_some.mp loads
  have loads' := Outcome.toOption_eq_some.mp loads'
  have stores := Outcome.toOption_eq_some.mp stores
  have stores' := Outcome.toOption_eq_some.mp stores'
  have settles := Outcome.toOption_eq_some.mp settles
  obtain ⟨load, store, -, ends, -⟩ :=
    storagePaths_agree reached executing .amsterdam recipient frame 5 9
  obtain ⟨-, loadFrame, loadAlike⟩ := (load 2000 rfl).1.same _ _ _ _ loads loads'
  obtain ⟨-, storeFrame, storeAlike⟩ := (store 2100 rfl).1.same _ _ _ _ stores stores'
  exact ⟨config, frame, loaded, loaded', stored, stored', last, loads, loads', stores, stores',
    loadFrame, loadAlike (Option.some_ne_none _), storeFrame, storeAlike (Option.some_ne_none _),
    settles, ends last settles⟩

end StorageOps

end EvmZig.Execution
