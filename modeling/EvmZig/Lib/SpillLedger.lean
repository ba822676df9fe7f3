import Mathlib.Algebra.Order.Ring.Int
import Mathlib.Order.Fin.Basic
import Mathlib.Tactic.Common

/-!
# Ledgers with a reservoir that spills over

Charges are drawn from a reservoir and, once it is empty, from what is left of
a second pool; the ledger remembers how much was spent and how much of it
spilled over.  A credit goes back to the second pool first.  A nested ledger is
opened with the reservoir of its parent and absorbed into it when it closes.
`Sound` says that the reservoir can be read back from the two counters and that
nothing is owed to the second pool while the reservoir could repay it.
-/

set_option autoImplicit false

namespace EvmZig.Lib

@[ext] structure SpillLedger where
  left : Int
  reservoir : Int
  spent : Int
  spilled : Int
  deriving DecidableEq, Repr

namespace SpillLedger

/-- A ledger nothing was charged to. -/
def opened (left reservoir : Int) : SpillLedger := ⟨left, reservoir, 0, 0⟩

/-- The part of a charge the reservoir covers. -/
def covered (ledger : SpillLedger) (amount : Int) : Int :=
  min (max ledger.reservoir 0) amount

def charge (ledger : SpillLedger) (amount : Int) : SpillLedger where
  left := ledger.left - (amount - ledger.covered amount)
  reservoir := ledger.reservoir - ledger.covered amount
  spent := ledger.spent + amount
  spilled := ledger.spilled + (amount - ledger.covered amount)

/-- The part of a credit that is owed to the second pool. -/
def owed (ledger : SpillLedger) (amount : Int) : Int := min ledger.spilled amount

def credit (ledger : SpillLedger) (amount : Int) : SpillLedger where
  left := ledger.left + ledger.owed amount
  reservoir := ledger.reservoir + (amount - ledger.owed amount)
  spent := ledger.spent - amount
  spilled := ledger.spilled - ledger.owed amount

/-- Take over the pools and the counters of a nested ledger. -/
def absorb (ledger nested : SpillLedger) : SpillLedger where
  left := ledger.left
  reservoir := nested.reservoir
  spent := ledger.spent + nested.spent
  spilled := ledger.spilled + nested.spilled

/-- What the reservoir can give back to the second pool. -/
def repayable (ledger : SpillLedger) : Int := min ledger.reservoir ledger.spilled

def repay (ledger : SpillLedger) : SpillLedger where
  left := ledger.left + ledger.repayable
  reservoir := ledger.reservoir - ledger.repayable
  spent := ledger.spent
  spilled := ledger.spilled - ledger.repayable

/-- Undo every charge, without giving anything back to the second pool. -/
def rewind (ledger : SpillLedger) : SpillLedger where
  left := ledger.left
  reservoir := ledger.reservoir + (ledger.spent - ledger.spilled)
  spent := 0
  spilled := 0

/-- The counters account for the reservoir the ledger was opened with. -/
structure Sound (opening : Int) (ledger : SpillLedger) : Prop where
  balance : ledger.reservoir + ledger.spent - ledger.spilled = opening
  reservoir_nonneg : 0 ≤ ledger.reservoir
  spilled_nonneg : 0 ≤ ledger.spilled
  settled : ledger.reservoir = 0 ∨ ledger.spilled = 0

/-- The three counters besides what is left of the second pool agree. -/
structure Same (first second : SpillLedger) : Prop where
  reservoir : first.reservoir = second.reservoir
  spent : first.spent = second.spent
  spilled : first.spilled = second.spilled

variable {opening amount : Int} {ledger other nested : SpillLedger}

namespace Same

theorem refl (ledger : SpillLedger) : Same ledger ledger := ⟨rfl, rfl, rfl⟩

theorem trans {third : SpillLedger} (first : Same ledger other) (second : Same other third) :
    Same ledger third :=
  ⟨first.reservoir.trans second.reservoir, first.spent.trans second.spent,
    first.spilled.trans second.spilled⟩

theorem credit (same : Same ledger other) (amount : Int) :
    Same (ledger.credit amount) (other.credit amount) := by
  obtain ⟨reservoir, spent, spilled⟩ := same
  constructor <;> simp only [SpillLedger.credit, owed, reservoir, spent, spilled]

end Same

theorem sound_opened {left reservoir : Int} (nonneg : 0 ≤ reservoir) :
    Sound reservoir (opened left reservoir) :=
  ⟨by simp [opened], nonneg, Int.le_refl 0, .inr rfl⟩

namespace Sound

theorem of_same (sound : Sound opening ledger) (same : Same other ledger) :
    Sound opening other := by
  obtain ⟨balance, reservoirNonneg, spilledNonneg, settled⟩ := sound
  obtain ⟨reservoir, spent, spilled⟩ := same
  constructor
  case balance => rw [reservoir, spent, spilled]; exact balance
  case reservoir_nonneg => rw [reservoir]; exact reservoirNonneg
  case spilled_nonneg => rw [spilled]; exact spilledNonneg
  case settled => rw [reservoir, spilled]; exact settled

theorem charge (sound : Sound opening ledger) (positive : 0 < amount) :
    Sound opening (ledger.charge amount) := by
  obtain ⟨balance, reservoirNonneg, spilledNonneg, settled⟩ := sound
  constructor <;> simp only [SpillLedger.charge, covered] <;> omega

theorem credit (sound : Sound opening ledger) (positive : 0 < amount) :
    Sound opening (ledger.credit amount) := by
  obtain ⟨balance, reservoirNonneg, spilledNonneg, settled⟩ := sound
  constructor <;> simp only [SpillLedger.credit, owed] <;> omega

/-- Absorbing a nested ledger keeps the balance; repaying settles the pools. -/
theorem absorb_repay (sound : Sound opening ledger) (nestedSound : Sound ledger.reservoir nested) :
    Sound opening (ledger.absorb nested).repay := by
  obtain ⟨balance, reservoirNonneg, spilledNonneg, settled⟩ := sound
  obtain ⟨nestedBalance, nestedReservoir, nestedSpilled, nestedSettled⟩ := nestedSound
  constructor <;> simp only [SpillLedger.absorb, SpillLedger.repay, repayable] <;> omega

/-- A charge and the credit of the same amount cancel. -/
theorem credit_charge (sound : Sound opening ledger) (positive : 0 < amount) :
    (ledger.charge amount).credit amount = ledger := by
  obtain ⟨balance, reservoirNonneg, spilledNonneg, settled⟩ := sound
  ext <;> simp only [SpillLedger.credit, SpillLedger.charge, covered, owed] <;> omega

theorem rewind_reservoir (sound : Sound opening ledger) : ledger.rewind.reservoir = opening := by
  have balance := sound.balance
  simp only [rewind]
  omega

end Sound

/-- A nested ledger that was rewound leaves its parent as it was. -/
theorem absorb_rewound {left : Int} (same : Same nested (opened left ledger.reservoir)) :
    Same (ledger.absorb nested) ledger := by
  obtain ⟨reservoir, spent, spilled⟩ := same
  constructor <;> simp [absorb, reservoir, spent, spilled, opened]

end SpillLedger

end EvmZig.Lib
