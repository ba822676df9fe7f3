import Mathlib.Algebra.Order.Ring.Int
import Mathlib.Order.Fin.Basic
import Mathlib.Tactic.Common

/-!
# Safety-checked computations

A Zig expression of type `E!T` either yields a value, yields an error, or runs
into illegal behaviour that a safe build detects: a failed assertion, an
overflowing addition, a slice outside its operand.  `Checked` keeps the three
apart, so that "returns a value or an error" is a statement about the program
and not about the embedding.  `Action` is the same over a mutable receiver:
an error return keeps the receiver as it is at that point.
-/

set_option autoImplicit false

namespace EvmZig.Zig

/-- `std.debug.assert`. -/
def assert (condition : Prop) [Decidable condition] : Option Unit :=
  if condition then some () else none

theorem assert_true {condition : Prop} [Decidable condition] (holds : condition) :
    assert condition = some () :=
  if_pos holds

theorem assert_holds {condition : Prop} [Decidable condition] {value : Unit}
    (ran : assert condition = some value) : condition := by
  unfold assert at ran
  split at ran
  · assumption
  · cases ran

/-- Outcome of an expression of type `ε!α`. -/
inductive Checked (ε α : Type) where
  | ok (value : α)
  | fail (error : ε)
  | illegal
  deriving DecidableEq, Repr

namespace Checked

variable {ε α β : Type}

protected def bind (first : Checked ε α) (next : α → Checked ε β) :
    Checked ε β :=
  match first with
  | .ok value => next value
  | .fail error => .fail error
  | .illegal => .illegal

instance : Monad (Checked ε) where
  pure := ok
  bind := Checked.bind

instance : LawfulMonad (Checked ε) := LawfulMonad.mk' _
  (by
    intro α x
    cases x <;> rfl)
  (by intros; rfl)
  (by
    intro α β γ x f g
    cases x <;> rfl)

/-- An operation that never returns an error: `none` is illegal behaviour. -/
def ofOption (value : Option α) : Checked ε α :=
  match value with
  | some value => ok value
  | none => illegal

instance : MonadLift Option (Checked ε) := ⟨ofOption⟩

@[simp] theorem liftM_some (value : α) :
    (liftM (some value : Option α) : Checked ε α) = ok value := rfl

@[simp] theorem liftM_none : (liftM (none : Option α) : Checked ε α) = illegal := rfl

@[simp] theorem pure_eq (value : α) : (pure value : Checked ε α) = ok value := rfl

@[simp] theorem ok_bind (value : α) (next : α → Checked ε β) :
    (ok value >>= next) = next value := rfl

@[simp] theorem fail_bind (error : ε) (next : α → Checked ε β) :
    (fail error >>= next) = fail error := rfl

@[simp] theorem illegal_bind (next : α → Checked ε β) :
    ((illegal : Checked ε α) >>= next) = illegal := rfl

theorem bind_eq_ok {first : Checked ε α} {next : α → Checked ε β} {result : β} :
    (first >>= next) = ok result ↔
      ∃ value, first = ok value ∧ next value = ok result := by
  cases first <;> simp

end Checked

/-- Outcome of a call on a mutable receiver. -/
inductive Outcome (σ ε α : Type) where
  | ok (value : α) (after : σ)
  | fail (error : ε) (after : σ)
  | illegal
  deriving DecidableEq, Repr

/-- Rewrite the receiver a run leaves behind. -/
def Outcome.onState {σ ε α : Type} (rewrite : σ → σ) : Outcome σ ε α → Outcome σ ε α
  | .ok value after => .ok value (rewrite after)
  | .fail error after => .fail error (rewrite after)
  | .illegal => .illegal

/-- The result of a run that returned. -/
def Outcome.toOption {σ ε α : Type} : Outcome σ ε α → Option (α × σ)
  | .ok value after => some (value, after)
  | .fail _ _ => none
  | .illegal => none

theorem Outcome.toOption_eq_some {σ ε α : Type} {outcome : Outcome σ ε α} {value : α} {after : σ} :
    outcome.toOption = some (value, after) ↔ outcome = .ok value after := by
  cases outcome <;> simp [Outcome.toOption]

/-- A method with a mutable receiver of type `σ`. -/
def Action (σ ε α : Type) : Type := σ → Outcome σ ε α

namespace Action

variable {σ ε α β : Type}

protected def pure (value : α) : Action σ ε α := fun self => .ok value self

protected def bind (first : Action σ ε α) (next : α → Action σ ε β) :
    Action σ ε β := fun self =>
  match first self with
  | .ok value after => next value after
  | .fail error after => .fail error after
  | .illegal => .illegal

instance : Monad (Action σ ε) where
  pure := Action.pure
  bind := Action.bind

instance : LawfulMonad (Action σ ε) := LawfulMonad.mk' _
  (by
    intro α x
    funext self
    change Action.bind x _ self = x self
    simp only [Action.bind]
    cases x self <;> rfl)
  (by intros; rfl)
  (by
    intro α β γ x f g
    funext self
    change Action.bind (Action.bind x f) g self =
      Action.bind x (fun value => Action.bind (f value) g) self
    simp only [Action.bind]
    cases x self <;> rfl)

/-- `return error.X`. -/
def fail (error : ε) : Action σ ε α := fun self => .fail error self

def illegal : Action σ ε α := fun _ => .illegal

/-- `std.debug.assert` on the receiver. -/
def assert (condition : σ → Prop) [DecidablePred condition] :
    Action σ ε Unit := fun self =>
  if condition self then .ok () self else .illegal

/-- The receiver itself. -/
def get : Action σ ε σ := fun self => .ok self self

/-- Read a projection of the receiver. -/
def read (projection : σ → α) : Action σ ε α := fun self =>
  .ok (projection self) self

/-- Assign to the receiver. -/
def modify (update : σ → σ) : Action σ ε Unit := fun self => .ok () (update self)

/-- `if (condition) body`. -/
def when (condition : Prop) [Decidable condition] (body : Action σ ε Unit) : Action σ ε Unit :=
  if condition then body else pure ()

/-- `for (items) |item| body`. -/
def forEach {ι : Type} (body : ι → Action σ ε Unit) : List ι → Action σ ε Unit
  | [] => pure ()
  | item :: items => do
      body item
      forEach body items

/-- Run an expression that does not touch the receiver, converting its error
set to that of the method. -/
def attempt {ε' : Type} (convert : ε' → ε) (value : Checked ε' α) : Action σ ε α := fun self =>
  match value with
  | .ok value => .ok value self
  | .fail error => .fail (convert error) self
  | .illegal => .illegal

def ofOption (value : Option α) : Action σ ε α := fun self =>
  match value with
  | some value => .ok value self
  | none => .illegal

/-- Give the errors of `body` a wider error set. -/
def widen {ε' : Type} (convert : ε' → ε) (body : Action σ ε' α) : Action σ ε α := fun self =>
  match body self with
  | .ok value after => .ok value after
  | .fail error after => .fail (convert error) after
  | .illegal => .illegal

/-- `errdefer cleanup` around `body`: the error survives the cleanup. -/
def errdefer (cleanup : σ → σ) (body : Action σ ε α) : Action σ ε α := fun self =>
  match body self with
  | .ok value after => .ok value after
  | .fail error after => .fail error (cleanup after)
  | .illegal => .illegal

instance : MonadLift (Checked ε) (Action σ ε) := ⟨attempt id⟩

instance : MonadLift Option (Action σ ε) := ⟨ofOption⟩

@[simp] theorem pure_run (value : α) (self : σ) :
    (pure value : Action σ ε α) self = .ok value self := rfl

theorem bind_run (first : Action σ ε α) (next : α → Action σ ε β) (self : σ) :
    (first >>= next) self =
      match first self with
      | .ok value after => next value after
      | .fail error after => .fail error after
      | .illegal => .illegal := rfl

theorem map_run (transform : α → β) (body : Action σ ε α) (self : σ) :
    (transform <$> body) self =
      match body self with
      | .ok value after => .ok (transform value) after
      | .fail error after => .fail error after
      | .illegal => .illegal := rfl

theorem bind_eq_ok {first : Action σ ε α} {next : α → Action σ ε β} {self after : σ} {result : β} :
    (first >>= next) self = .ok result after ↔
      ∃ value middle, first self = .ok value middle ∧ next value middle = .ok result after := by
  rw [bind_run]
  cases first self <;> simp

theorem assert_eq_ok {condition : σ → Prop} [DecidablePred condition] {self after : σ} {value : Unit} :
    (assert condition : Action σ ε Unit) self = .ok value after ↔
      condition self ∧ self = after := by
  unfold assert
  split
  · rename_i true
    simp [true]
  · rename_i false
    simp [false]

theorem liftOption_eq_ok {value : Option α} {self after : σ} {result : α} :
    (liftM value : Action σ ε α) self = .ok result after ↔ value = some result ∧ self = after := by
  change ofOption value self = _ ↔ _
  cases value <;> simp [ofOption]

@[simp] theorem get_run (self : σ) : (get : Action σ ε σ) self = .ok self self := rfl

@[simp] theorem read_run (projection : σ → α) (self : σ) :
    (read projection : Action σ ε α) self = .ok (projection self) self := rfl

@[simp] theorem modify_run (update : σ → σ) (self : σ) :
    (modify update : Action σ ε Unit) self = .ok () (update self) := rfl

@[simp] theorem fail_run (error : ε) (self : σ) :
    (fail error : Action σ ε α) self = .fail error self := rfl

@[simp] theorem attempt_ok {ε' : Type} (convert : ε' → ε) (value : α) (self : σ) :
    (attempt convert (.ok value) : Action σ ε α) self = .ok value self := rfl

@[simp] theorem attempt_fail {ε' : Type} (convert : ε' → ε) (error : ε') (self : σ) :
    (attempt convert (.fail error) : Action σ ε α) self = .fail (convert error) self := rfl

@[simp] theorem liftM_ok (value : α) (self : σ) :
    (liftM (.ok value : Checked ε α) : Action σ ε α) self = .ok value self := rfl

@[simp] theorem liftM_fail (error : ε) (self : σ) :
    (liftM (.fail error : Checked ε α) : Action σ ε α) self = .fail error self := rfl

@[simp] theorem liftM_illegal (self : σ) :
    (liftM (.illegal : Checked ε α) : Action σ ε α) self = .illegal := rfl

@[simp] theorem liftM_some (value : α) (self : σ) :
    (liftM (some value : Option α) : Action σ ε α) self = .ok value self := rfl

@[simp] theorem liftM_none (self : σ) :
    (liftM (none : Option α) : Action σ ε α) self = .illegal := rfl

end Action

end EvmZig.Zig
