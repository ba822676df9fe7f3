import EvmZig.Execution.StoragePaths

/-!
# Net metering over a transaction

The writes of a transaction, to any slots and in any frames that all commit, by what
they take from the counters of their frames.  What a slot's writes cost beyond the
price of each, and the state gas they took, depend on the ends of the slot only; no
refund is owed at the end.
-/

set_option autoImplicit false

namespace EvmZig.Execution

open Zig Lib
open State (Env StorageStatus WorldState Genesis Config)
open State.WorldState
open Transaction (Revision)

namespace StorageOps

variable {env : Env} {revision : Revision} {status : StorageStatus}

/-! ## What a write takes -/

/-- No counter is within `amount` of the ends of its range. -/
structure HasRoom (amount : Int) (gas : Counters) : Prop where
  left : 0 ≤ gas.gasLeft ∧ gas.gasLeft + amount ≤ i64Max
  reservoir : 0 ≤ gas.gasReservoir ∧ gas.gasReservoir + amount ≤ i64Max
  spent : i64Min + amount ≤ gas.stateGasSpent ∧ gas.stateGasSpent + amount ≤ i64Max
  spilled : 0 ≤ gas.stateGasFromGasLeft ∧ gas.stateGasFromGasLeft + amount ≤ i64Max

theorem HasRoom.le {amount most : Int} {gas : Counters} (room : HasRoom most gas)
    (less : amount ≤ most) : HasRoom amount gas := by
  obtain ⟨left, reservoir, spent, spilled⟩ := room
  constructor <;> omega

theorem slotCreationGas_nonneg (revision : Revision) : 0 ≤ slotCreationGas revision := by
  cases revision <;> decide

theorem accessGas_nonneg (revision : Revision) (access : State.AccessStatus) :
    0 ≤ accessGas (storageSpecAt revision) access := by
  cases revision <;> cases access <;> decide

theorem sstoreGas_nonneg (revision : Revision) (status : StorageStatus) :
    0 ≤ ((storageSpecAt revision).sstoreGas status).cost := by
  cases revision <;> cases status <;> decide

/-- A write takes the state gas of one slot, gives it back, or does neither. -/
theorem sstoreStateGas_cases (revision : Revision) (status : StorageStatus) :
    let gas := (storageSpecAt revision).sstoreStateGas status
    (gas.charge = 0 ∧ (gas.refund = 0 ∨ gas.refund = slotCreationGas revision)) ∨
      gas.charge = slotCreationGas revision ∧ gas.refund = 0 := by
  cases revision <;> cases status <;> decide

theorem trackGas_stops {price : Int} {frame last : CallFrame}
    (ran : CallFrame.trackGas price frame = .ok false last) : ¬last.isRunning := by
  rw [(trackGas_settled ran).lacks.2]
  intro running
  cases running

theorem trackStateGas_stops {amount : Int} {frame last : CallFrame}
    (ran : trackStateGas amount frame = .ok false last) : ¬last.isRunning := by
  by_cases none : amount ≤ 0
  · simp [trackStateGas, none] at ran
  · simp only [trackStateGas, if_neg none, Action.bind_eq_ok, Action.read_run,
      Action.liftOption_eq_ok] at ran
    obtain ⟨fromReservoir, middle, -, fromRegular, middle', -, covered, tracked, tracks, rest⟩ := ran
    cases covered with
    | true =>
        obtain ⟨_, assigned, -, ends⟩ := Action.bind_eq_ok.mp rest
        cases ends
    | false =>
        cases rest
        exact trackGas_stops tracks

/-- State gas is taken without a counter leaving its range. -/
theorem trackStateGas_paid {amount : Int} {frame last : CallFrame} (room : HasRoom amount frame.gas)
    (refundFits : FitsI64 frame.gas.gasRefund) (ran : trackStateGas amount frame = .ok true last) :
    last.gas = frame.gas.charged amount true := by
  by_cases none : amount ≤ 0
  · simp only [trackStateGas, if_pos none, Action.pure_run, Outcome.ok.injEq] at ran
    obtain ⟨-, rfl⟩ := ran
    exact (if_pos none).symm
  obtain ⟨⟨leftNonneg, left⟩, ⟨reservoirNonneg, reservoir⟩, ⟨spentLow, spent⟩, spilledNonneg, spilled⟩ :=
    room
  refine trackStateGas_ok ran ?_
  change (frame.gas.charged amount true).Fits
  simp only [Counters.charged, if_neg none, if_true, Counters.withLedger, SpillLedger.charge,
    SpillLedger.covered, Counters.ledger]
  rw [i64Max_eq] at left reservoir spent spilled
  rw [i64Min_eq] at spentLow
  constructor <;> simp only [FitsI64, i64Min_eq, i64Max_eq] at refundFits ⊢ <;> omega

/-- And given back. -/
theorem refillStateGas_paid {amount : Int} {gas after : Counters} (room : HasRoom amount gas)
    (refundFits : FitsI64 gas.gasRefund) (nonneg : 0 ≤ amount)
    (ran : refillStateGas amount gas = some after) : after = gas.refilled amount := by
  obtain ⟨⟨leftNonneg, left⟩, ⟨reservoirNonneg, reservoir⟩, ⟨spentLow, spent⟩, spilledNonneg, spilled⟩ :=
    room
  rw [i64Max_eq] at left reservoir spent spilled
  rw [i64Min_eq] at spentLow
  have amountFits : FitsI64 amount := by
    simp only [FitsI64, i64Min_eq, i64Max_eq]
    omega
  have fits : (gas.refilled amount).Fits := by
    unfold Counters.refilled
    split
    · constructor <;> simp only [FitsI64, i64Min_eq, i64Max_eq] at refundFits ⊢ <;> omega
    · simp only [Counters.withLedger, SpillLedger.credit, SpillLedger.owed, Counters.ledger]
      constructor <;> simp only [FitsI64, i64Min_eq, i64Max_eq] at refundFits ⊢ <;> omega
  rw [refillStateGas_eq spilledNonneg amountFits fits] at ran
  exact (Option.some.inj ran).symm

/-- State gas goes to both pools together. -/
theorem refilled_totals {amount : Int} (nonneg : 0 ≤ amount) (gas : Counters) :
    (gas.refilled amount).gasRefund = gas.gasRefund ∧
      (gas.refilled amount).stateGasSpent = gas.stateGasSpent - amount ∧
      (gas.refilled amount).gasLeft + (gas.refilled amount).gasReservoir =
        gas.gasLeft + gas.gasReservoir + amount := by
  unfold Counters.refilled
  split
  · omega
  · refine ⟨rfl, rfl, ?_⟩
    change gas.gasLeft + _ + (gas.gasReservoir + (amount - _)) = _
    ring

theorem charged_totals {amount : Int} (nonneg : 0 ≤ amount) (gas : Counters) :
    (gas.charged amount true).gasRefund = gas.gasRefund ∧
      (gas.charged amount true).stateGasSpent = gas.stateGasSpent + amount ∧
      (gas.charged amount true).gasLeft + (gas.charged amount true).gasReservoir =
        gas.gasLeft + gas.gasReservoir - amount := by
  unfold Counters.charged
  split
  · omega
  · refine ⟨rfl, rfl, ?_⟩
    change gas.gasLeft - (amount - _) + (gas.gasReservoir - _) = _
    ring

/-- What happened to the counters of a frame that was charged. -/
structure Takes (gas : StorageGas) (state : StorageStateGas) (access : Int) (before after : Counters) :
    Prop where
  refund : after.gasRefund - before.gasRefund = gas.refund
  stateGas : after.stateGasSpent - before.stateGasSpent = state.charge - state.refund
  total : before.gasLeft + before.gasReservoir - (after.gasLeft + after.gasReservoir) =
    access + gas.cost + (state.charge - state.refund)

/-- The counters with the access and the write paid for. -/
def paidGas (access : Int) (gas : StorageGas) (before : Counters) : Counters :=
  { before with
    gasLeft := before.gasLeft - access - gas.cost
    gasRefund := before.gasRefund + gas.refund }

/-- A write that is charged pays its price, then its state gas, and gets back what it frees. -/
theorem chargeSstore_ok {spec : StorageSpec} {access : Int} {frame charged : CallFrame}
    (ran : chargeSstore spec status (takeGas access frame) = .ok () charged)
    (running : charged.isRunning) :
    ∃ paid tracked : CallFrame, paid.gas = paidGas access (spec.sstoreGas status) frame.gas ∧
      FitsI64 paid.gas.gasRefund ∧
      (0 < (spec.sstoreGas status).cost →
        (spec.sstoreGas status).cost ≤ frame.gas.gasLeft - access) ∧
      trackStateGas (spec.sstoreStateGas status).charge paid = .ok true tracked ∧
      refillStateGas (spec.sstoreStateGas status).refund tracked.gas = some charged.gas := by
  obtain ⟨paid, first, pays, rest⟩ := Action.bind_eq_ok.mp ran
  cases paid with
  | false =>
      cases rest
      exact absurd running (trackGas_stops pays)
  | true =>
      obtain ⟨_, second, refunds, rest⟩ := Action.bind_eq_ok.mp rest
      obtain ⟨covered, third, tracks, refills⟩ := Action.bind_eq_ok.mp rest
      cases covered with
      | false =>
          cases refills
          exact absurd running (trackStateGas_stops tracks)
      | true =>
          obtain ⟨enough, rfl⟩ := (trackGas_settled pays).pays
          obtain ⟨counters, refunded, rfl⟩ := assignGas_ok.mp refunds
          obtain ⟨settled, refilled, rfl⟩ := assignGas_ok.mp refills
          obtain ⟨refund, added, ends⟩ := Option.bind_eq_some_iff.mp refunded
          obtain ⟨refundFits, rfl⟩ := addI64_eq_some.mp added
          cases ends
          exact ⟨_, third, rfl, refundFits, enough, tracks, refilled⟩

/-- The charge of a write, on the counters. -/
theorem chargeSstore_takes {access : Int} {frame charged : CallFrame} (nonneg : 0 ≤ access)
    (enough : 0 < access → access ≤ frame.gas.gasLeft)
    (room : HasRoom (slotCreationGas revision) frame.gas)
    (ran : chargeSstore (storageSpecAt revision) status (takeGas access frame) = .ok () charged)
    (running : charged.isRunning) :
    Takes ((storageSpecAt revision).sstoreGas status) ((storageSpecAt revision).sstoreStateGas status)
      access frame.gas charged.gas := by
  have costNonneg := sstoreGas_nonneg revision status
  have states := sstoreStateGas_cases revision status
  have creation := slotCreationGas_nonneg revision
  obtain ⟨paid, tracked, pays, refundFits, enough', tracks, refilled⟩ := chargeSstore_ok ran running
  revert tracks refilled states
  generalize (storageSpecAt revision).sstoreStateGas status = state
  intro states tracks refilled
  have roomy : HasRoom (slotCreationGas revision) paid.gas := by
    obtain ⟨⟨leftNonneg, left⟩, reservoir, spent, spilled⟩ := room
    rw [pays]
    refine ⟨?_, reservoir, spent, spilled⟩
    constructor <;> dsimp only [paidGas] <;> omega
  rcases states with ⟨uncharged, back⟩ | ⟨charge, unrefunded⟩
  · rw [uncharged] at tracks
    simp only [trackStateGas, le_refl, if_pos, Action.pure_run, Outcome.ok.injEq] at tracks
    obtain ⟨-, rfl⟩ := tracks
    have less : 0 ≤ state.refund ∧ state.refund ≤ slotCreationGas revision := by omega
    have ends := refillStateGas_paid (roomy.le less.2) refundFits less.1 refilled
    obtain ⟨sameRefund, spent, pools⟩ := refilled_totals less.1 paid.gas
    rw [← ends, pays] at sameRefund spent pools
    dsimp only [paidGas] at sameRefund spent pools
    constructor <;> omega
  · have ends := trackStateGas_paid (roomy.le charge.le) refundFits tracks
    rw [unrefunded] at refilled
    simp only [refillStateGas, le_refl, if_pos] at refilled
    have same := Option.some.inj refilled
    obtain ⟨sameRefund, spent, pools⟩ := charged_totals (creation.trans charge.ge) paid.gas
    rw [← ends, same, pays] at sameRefund spent pools
    dsimp only [paidGas] at sameRefund spent pools
    constructor <;> omega

/-! ## The writes of a transaction -/

/-- One write: its slot, the price of its access, and the counters of its frame around it. -/
structure SlotWrite where
  address : Address
  slot : U256
  access : Int
  before : Counters
  after : Counters

namespace SlotWrite

/-- The slot of a write. -/
def place (write : SlotWrite) : Address × U256 := (write.address, write.slot)

/-- What the write took from the gas of its frame. -/
def taken (write : SlotWrite) : Int :=
  write.before.gasLeft + write.before.gasReservoir -
    (write.after.gasLeft + write.after.gasReservoir)

/-- The part of it that is state gas. -/
def stateGas (write : SlotWrite) : Int := write.after.stateGasSpent - write.before.stateGasSpent

def refund (write : SlotWrite) : Int := write.after.gasRefund - write.before.gasRefund

/-- What it cost, less its refund, beyond its access and the price `each` of a write. -/
def beyond (each : Int) (write : SlotWrite) : Int :=
  write.taken - write.stateGas - write.refund - write.access - each

/-- The counters moved as the status of the write has them. -/
def Priced (revision : Revision) (status : StorageStatus) (write : SlotWrite) : Prop :=
  Takes ((storageSpecAt revision).sstoreGas status) ((storageSpecAt revision).sstoreStateGas status)
    write.access write.before write.after

end SlotWrite

/-- The writes of a transaction between two states.  Each is an SSTORE of a frame that went on
running; whatever else happens leaves the slots as they are. -/
inductive Stores (env : Env) (revision : Revision) (start : WorldState) :
    List SlotWrite → WorldState → Prop
  | none : Stores env revision start [] start
  | aside {writes : List SlotWrite} {mid last : WorldState}
      (stores : Stores env revision start writes mid) (housed : Housed last) (sound : Sound env last)
      (keeps : KeepsSlots env Nowhere mid last) : Stores env revision start writes last
  | stored {writes : List SlotWrite} {mid last : WorldState} {frame charged : CallFrame}
      {address : Address} {slot value : U256} (stores : Stores env revision start writes mid)
      (executing : Executing mid) (room : HasRoom (slotCreationGas revision) frame.gas)
      (ran : sstoreAfterPop env (storageSpecAt revision) address slot value ⟨frame, mid⟩ =
        .ok () ⟨charged, last⟩) (running : charged.isRunning) :
      Stores env revision start (writes ++ [{
        address
        slot
        access := accessGas (storageSpecAt revision) (warmth env mid address slot)
        before := frame.gas
        after := charged.gas }]) last

/-- Every slot is measured against what it holds. -/
def Fresh (env : Env) (state : WorldState) : Prop :=
  ∀ address slot, state.originalValue env address slot = state.storageValue env address slot

variable {start last : WorldState} {writes : List SlotWrite}

/-- A write that its frame goes on after was charged for the way it moved its slot. -/
theorem sstoreAfterPop_priced {mid : WorldState} {frame charged : CallFrame} {address : Address}
    {slot value : U256} (sound : Sound env mid) (housed : Housed mid) (executing : Executing mid)
    (room : HasRoom (slotCreationGas revision) frame.gas)
    (ran : sstoreAfterPop env (storageSpecAt revision) address slot value ⟨frame, mid⟩ =
      .ok () ⟨charged, last⟩) (running : charged.isRunning) :
    (Sound env last ∧ Housed last ∧ KeepsSlots env (Only address slot) mid last ∧
      last.storageValue env address slot = value) ∧
    SlotWrite.Priced revision
      (State.storageStatus (mid.originalValue env address slot) (mid.storageValue env address slot)
        value)
      ⟨address, slot, accessGas (storageSpecAt revision) (warmth env mid address slot), frame.gas,
        charged.gas⟩ := by
  cases sstoreAfterPop_ok sound executing ran with
  | sentry stops halted same =>
      obtain rfl : charged = ranDry frame := halted
      cases running
  | unpaid passes short halted unread =>
      obtain rfl : charged = ranDry frame := halted
      cases running
  | written passes enough reached charges =>
      obtain ⟨lastHoused, keeps, rfl, written⟩ := reached.moves executing housed
      exact ⟨⟨reached.sound executing sound, lastHoused, keeps, written⟩,
        chargeSstore_takes (accessGas_nonneg _ _) enough room charges running⟩

/-- Prices that cover the differences of a potential add up to what it says of the ends. -/
theorem Stores.covers {price : SlotWrite → Int} {potential : U256 → U256 → Int}
    (step : ∀ write original current value,
      SlotWrite.Priced revision (State.storageStatus original current value) write →
        potential original value - potential original current ≤ price write)
    (same : ∀ original, potential original original = 0)
    (stores : Stores env revision start writes last) (housed : Housed start) (sound : Sound env start)
    (fresh : Fresh env start) (address : Address) (slot : U256) :
    (Housed last ∧ Sound env last) ∧
      last.originalValue env address slot = start.storageValue env address slot ∧
      potential (start.storageValue env address slot) (last.storageValue env address slot) ≤
        sumAt SlotWrite.place price (address, slot) writes := by
  induction stores with
  | none => exact ⟨⟨housed, sound⟩, fresh address slot, (same _).le⟩
  | aside _ lastHoused lastSound keeps ih =>
      obtain ⟨-, original, sum⟩ := ih
      refine ⟨⟨lastHoused, lastSound⟩, (keeps.original address slot).trans original, ?_⟩
      rw [keeps.value address slot id]
      exact sum
  | @stored writes mid last frame charged written place value _ executing room ran running ih =>
      obtain ⟨⟨midHoused, midSound⟩, original, sum⟩ := ih
      obtain ⟨⟨lastSound, lastHoused, keeps, moved⟩, priced⟩ :=
        sstoreAfterPop_priced midSound midHoused executing room ran running
      refine ⟨⟨lastHoused, lastSound⟩, (keeps.original address slot).trans original, ?_⟩
      rw [sumAt_append, sumAt_single]
      generalize made : (⟨written, place, _, frame.gas, charged.gas⟩ : SlotWrite) = write at priced ⊢
      have own : write.place = (written, place) := by
        rw [← made]
        rfl
      rw [own]
      by_cases here : written = address ∧ place = slot
      · obtain ⟨rfl, rfl⟩ := here
        have covered := step _ _ _ _ priced
        rw [if_pos rfl, moved]
        rw [original] at covered
        omega
      · have elsewhere : (written, place) ≠ (address, slot) :=
          fun same => here ⟨congrArg Prod.fst same, congrArg Prod.snd same⟩
        have free : ¬Only written place address slot := fun only => here ⟨only.1.symm, only.2.symm⟩
        rw [if_neg elsewhere, keeps.value address slot free, Int.add_zero]
        exact sum

/-- Prices that are the differences of a potential add up to no more either. -/
theorem Stores.telescopes {price : SlotWrite → Int} {potential : U256 → U256 → Int}
    (step : ∀ write original current value,
      SlotWrite.Priced revision (State.storageStatus original current value) write →
        price write = potential original value - potential original current)
    (same : ∀ original, potential original original = 0)
    (stores : Stores env revision start writes last) (housed : Housed start) (sound : Sound env start)
    (fresh : Fresh env start) (address : Address) (slot : U256) :
    sumAt SlotWrite.place price (address, slot) writes =
      potential (start.storageValue env address slot) (last.storageValue env address slot) := by
  have below := (stores.covers (fun write original current value priced =>
    (step write original current value priced).ge) same housed sound fresh address slot).2.2
  have opposite : ∀ write original current value,
      SlotWrite.Priced revision (State.storageStatus original current value) write →
      -potential original value - -potential original current ≤ -price write := by
    intro write original current value priced
    rw [step write original current value priced]
    omega
  have above := (Stores.covers opposite (fun original => by rw [same, Int.neg_zero]) stores housed
    sound fresh address slot).2.2
  rw [sumAt_neg] at above
  omega

/-- What the writes of a slot take from their frames, less their refunds and beyond the price of
each, depends on the value before the transaction and the last one; the refunds of all slots
together are not negative; and the state gas that stays charged is that of the slots created. -/
theorem sstore_telescopes {schedule : StorageSchedule} (net : netSchedule revision = some schedule)
    (stores : Stores env revision start writes last) (housed : Housed start) (sound : Sound env start)
    (fresh : Fresh env start) :
    (∀ address slot,
      sumAt SlotWrite.place (SlotWrite.beyond schedule.warmAccess) (address, slot) writes =
        schedule.netCharge (start.storageValue env address slot)
          (last.storageValue env address slot)) ∧
    0 ≤ (writes.map SlotWrite.refund).sum ∧
    ∀ address slot, sumAt SlotWrite.place SlotWrite.stateGas (address, slot) writes =
      if start.storageValue env address slot = 0 ∧ last.storageValue env address slot ≠ 0 then
        slotCreationGas revision
      else 0 := by
  obtain ⟨metered, gas⟩ := sstoreGas_net net
  refine ⟨stores.telescopes ?_ StorageSchedule.netCharge_same housed sound fresh, ?_,
    stores.telescopes ?_ (createdGas_same revision) housed sound fresh⟩
  · intro write original current value priced
    rw [← StorageSchedule.netCharge_step metered, ← gas, SlotWrite.beyond, SlotWrite.taken,
      SlotWrite.stateGas, SlotWrite.refund, priced.total, priced.stateGas, priced.refund]
    ring
  · refine @sum_nonneg_of_sumAt SlotWrite _ _ SlotWrite.place _ writes ?_
    intro place
    have step : ∀ write original current value,
        SlotWrite.Priced revision (State.storageStatus original current value) write →
        schedule.heldRefund original value - schedule.heldRefund original current ≤ write.refund := by
      intro write original current value priced
      rw [SlotWrite.refund, priced.refund, gas]
      exact StorageSchedule.heldRefund_step metered original current value
    have covered := (stores.covers step StorageSchedule.heldRefund_same housed sound fresh place.1
      place.2).2.2
    exact (metered.heldRefund_nonneg _ _).trans covered
  · intro write original current value priced
    rw [SlotWrite.stateGas, priced.stateGas]
    exact createdGas_step revision original current value

/-! ## The start of a transaction -/

/-- Nothing is stamped with a time still to come, after any run. -/
theorem exec_bygone {genesis : Genesis} {moves : List State.Move} {config : Config}
    (ran : (Config.init genesis).exec genesis.env moves = some config) : config.Bygone := by
  have all : ∀ {moves : List State.Move} {first : Config}, WorldState.Stacked first.state
      first.scopes → first.Bygone →
      first.exec genesis.env moves = some config → config.Bygone := by
    intro moves
    induction moves with
    | nil =>
        intro first stacked bygone ran
        cases ran
        exact bygone
    | cons move moves ih =>
        intro first stacked bygone ran
        obtain ⟨next, stepped, rest⟩ := Option.bind_eq_some_iff.mp ran
        have step := Config.step_cases stepped
        exact ih (stacked.step step) (bygone.step stacked step) rest
  exact all (.init genesis) (.init genesis) ran

theorem storageAt_past {state : WorldState} (aged : Aged state) (address : Address) (slot : U256) :
    (state.storageAt env address slot).executionOriginalRoot ≤ state.clock := by
  rw [storageAt]
  cases found : state.world.accounts.find address with
  | none => exact Nat.zero_le _
  | some account =>
      rw [Option.bind_some]
      cases held : state.world.storage.value { account, slot } with
      | none => exact Nat.zero_le _
      | some row =>
          obtain ⟨id, -, rowHeld⟩ := Table.value_eq_some.mp held
          exact (aged.slot id row rowHeld).original

/-- A session that opens after nothing was created measures every slot against what it holds. -/
theorem openSession_fresh {genesis : Genesis} {moves : List State.Move} {config : Config}
    {opened : WorldState} (faithful : (Config.init genesis).Faithful genesis.env moves)
    (ran : (Config.init genesis).exec genesis.env moves = some config)
    (opens : WorldState.openSession config.state = .ok () opened)
    (uncreated : ∀ address, (config.state.accountAt genesis.env address).flags.created = false) :
    Housed opened ∧ Sound genesis.env opened ∧ Fresh genesis.env opened := by
  obtain ⟨base, scope, inv⟩ := (Config.exec_sound faithful ran).nested.inv rooted_outermost
  have bygone := exec_bygone ran
  obtain ⟨running, -, rfl⟩ := openSession_ran opens
  have stepped : config.step genesis.env .openSession = some { config with
      state := rescoped (config.state.clock + 1) 1 config.state } := by
    unfold Config.step
    dsimp only
    rw [opens]
    rfl
  have both : (Config.init genesis).exec genesis.env (moves ++ [.openSession]) = some { config with
      state := rescoped (config.state.clock + 1) 1 config.state } := by
    rw [Config.exec_append, ran, Option.bind_some, Config.exec, stepped]
    rfl
  have sound := exec_sound both running
  refine ⟨inv.stamps.owner, sound, fun address slot => ?_⟩
  have kept : ((rescoped (config.state.clock + 1) 1 config.state).accountAt genesis.env
      address).flags.created = false := uncreated address
  have root : ((rescoped (config.state.clock + 1) 1 config.state).storageAt genesis.env address
      slot).executionOriginalRoot ≤ config.state.clock := storageAt_past bygone.state address slot
  rw [originalValue, kept, if_neg (by decide), if_neg]
  exact Nat.ne_of_lt (Nat.lt_succ_of_le root)

/-- A slot is created and emptied again in the first session of a bare world. -/
theorem sstore_telescopes_bare : ∃ (start last : WorldState) (writes : List SlotWrite),
    writes.map SlotWrite.taken = [110020, -97820] ∧ writes.map SlotWrite.refund = [0, 10000] ∧
    Stores State.Config.bare.env .amsterdam start writes last ∧
    0 ≤ (writes.map SlotWrite.refund).sum := by
  let env := State.Config.bare.env
  let spec := storageSpecAt .amsterdam
  let place := State.Config.addressOf 1
  let full : CallFrame := ⟨.running, ⟨200000, 0, 0, 0, 0⟩, []⟩
  let less : CallFrame := ⟨.running, ⟨89980, 0, 0, 97920, 97920⟩, []⟩
  have values : (((Config.init State.Config.bare).exec env [.beginAttempt false]).bind fun config =>
      (WorldState.openSession config.state).toOption.bind fun opened =>
        (sstoreAfterPop env spec place 5 1 ⟨full, opened.2⟩).toOption.bind fun first =>
        (sstoreAfterPop env spec place 5 0 first.2).toOption.map fun second =>
          (config.state.world.accounts.count, decide (Executing opened.2),
            decide (Executing first.2.state), first.2.frame, second.2.frame)) =
      some (0, true, true, less, ⟨.running, ⟨187800, 10000, 0, 0, 0⟩, []⟩) := by
    decide +kernel
  obtain ⟨config, reached, values⟩ := Option.bind_eq_some_iff.mp values
  obtain ⟨⟨_, opened⟩, opens, values⟩ := Option.bind_eq_some_iff.mp values
  obtain ⟨⟨_, charged, mid⟩, creates, values⟩ := Option.bind_eq_some_iff.mp values
  obtain ⟨⟨_, again, last⟩, empties, values⟩ := Option.map_eq_some_iff.mp values
  simp only [Prod.mk.injEq, decide_eq_true_eq] at values
  obtain ⟨empty, executing, still, rfl, rfl⟩ := values
  have uncreated : ∀ address,
      (config.state.accountAt State.Config.bare.env address).flags.created = false := by
    intro address
    have missing : config.state.world.accounts.find address = none := by
      cases found : config.state.world.accounts.find address with
      | none => rfl
      | some id =>
          have bound := Table.key_lt (Table.find_eq_some.mp found)
          rw [empty] at bound
          exact absurd bound (Nat.not_lt_zero _)
    rw [accountAt_of_missing missing]
    rfl
  obtain ⟨housed, sound, fresh⟩ := openSession_fresh (Config.faithful_of_no_restore (by simp)) reached
    (Outcome.toOption_eq_some.mp opens) uncreated
  have roomy : HasRoom (slotCreationGas .amsterdam) full.gas := by
    constructor <;> decide
  have stillRoomy : HasRoom (slotCreationGas .amsterdam) less.gas := by
    constructor <;> decide
  have stores := ((@Stores.none env .amsterdam opened).stored executing roomy
    (Outcome.toOption_eq_some.mp creates) rfl).stored still stillRoomy
    (Outcome.toOption_eq_some.mp empties) rfl
  exact ⟨opened, last, _, rfl, rfl, stores, (sstore_telescopes rfl stores housed sound fresh).2.1⟩

end StorageOps

end EvmZig.Execution
