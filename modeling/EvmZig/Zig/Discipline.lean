import EvmZig.Zig.Checked

/-!
# Disciplines on a mutable receiver

A discipline is an invariant of the receiver and a preorder between its states.
A method keeps the discipline when every run of it, whether it returns or
fails, ends in the invariant and in a state the preorder allows; an illegal run
ends nowhere.  Composite methods inherit it from their parts.
-/

set_option autoImplicit false

namespace EvmZig.Zig

structure Discipline (σ : Type) where
  inv : σ → Prop
  rel : σ → σ → Prop
  refl : ∀ {self}, inv self → rel self self
  trans : ∀ {first second third}, rel first second → rel second third → rel first third

variable {σ ε α β : Type}

/-- What a run may leave behind. -/
def Discipline.Allows (discipline : Discipline σ) (self : σ) (post : α → σ → Prop) :
    Outcome σ ε α → Prop
  | .ok value after => discipline.inv after ∧ discipline.rel self after ∧ post value after
  | .fail _ after => discipline.inv after ∧ discipline.rel self after
  | .illegal => True

def Keeps (discipline : Discipline σ) (pre : σ → Prop) (body : Action σ ε α)
    (post : α → σ → Prop) : Prop :=
  ∀ self, discipline.inv self → pre self → discipline.Allows self post (body self)

/-- `Keeps` without conditions. -/
def Safe (discipline : Discipline σ) (body : Action σ ε α) : Prop :=
  Keeps discipline (fun _ => True) body fun _ _ => True

variable {discipline : Discipline σ} {pre pre' : σ → Prop} {mid post' : α → σ → Prop}
  {post : β → σ → Prop} {body : Action σ ε α} {next : α → Action σ ε β}

namespace Keeps

theorem bind (first : Keeps discipline pre body mid)
    (second : ∀ value, Keeps discipline (mid value) (next value) post) :
    Keeps discipline pre (body >>= next) post := by
  intro self invariant holds
  have ran := first self invariant holds
  rw [Action.bind_run]
  cases outcome : body self with
  | illegal => trivial
  | fail error after =>
      rw [outcome] at ran
      exact ran
  | ok value after =>
      rw [outcome] at ran
      obtain ⟨middle, stepped, condition⟩ := ran
      have rest := second value after middle condition
      dsimp only
      cases ending : next value after with
      | illegal => trivial
      | fail error last =>
          rw [ending] at rest
          exact ⟨rest.1, discipline.trans stepped rest.2⟩
      | ok result last =>
          rw [ending] at rest
          exact ⟨rest.1, discipline.trans stepped rest.2.1, rest.2.2⟩

theorem imp (kept : Keeps discipline pre body mid) (stronger : ∀ self, pre' self → pre self)
    (weaker : ∀ value after, mid value after → post' value after) :
    Keeps discipline pre' body post' := by
  intro self invariant holds
  have ran := kept self invariant (stronger self holds)
  cases outcome : body self with
  | illegal => trivial
  | fail error after =>
      rw [outcome] at ran
      exact ran
  | ok value after =>
      rw [outcome] at ran
      exact ⟨ran.1, ran.2.1, weaker value after ran.2.2⟩

theorem weaken (kept : Keeps discipline pre body mid)
    (weaker : ∀ value after, mid value after → post' value after) :
    Keeps discipline pre body post' :=
  kept.imp (fun _ holds => holds) weaker

/-- What one discipline says of a body, another says where its steps are allowed. -/
theorem relate {other : Discipline σ} (kept : Keeps discipline pre body mid)
    (invariant : ∀ self, other.inv self → discipline.inv self)
    (step : ∀ self after, other.inv self → discipline.inv after → discipline.rel self after →
      other.inv after ∧ other.rel self after) : Keeps other pre body mid := by
  intro self holds condition
  have ran := kept self (invariant self holds) condition
  cases outcome : body self with
  | illegal => trivial
  | fail error after =>
      rw [outcome] at ran
      exact step self after holds ran.1 ran.2
  | ok value after =>
      rw [outcome] at ran
      have stepped := step self after holds ran.1 ran.2.1
      exact ⟨stepped.1, stepped.2, ran.2.2⟩

theorem errdefer {cleanup : σ → σ} (cleans : ∀ self, discipline.inv self →
      discipline.inv (cleanup self) ∧ discipline.rel self (cleanup self))
    (kept : Keeps discipline pre body mid) :
    Keeps discipline pre (Action.errdefer cleanup body) mid := by
  intro self invariant holds
  have ran := kept self invariant holds
  unfold Action.errdefer
  cases outcome : body self with
  | illegal => trivial
  | fail error after =>
      rw [outcome] at ran
      have cleaned := cleans after ran.1
      exact ⟨cleaned.1, discipline.trans ran.2 cleaned.2⟩
  | ok value after =>
      rw [outcome] at ran
      exact ran

/-- A condition that does not depend on the receiver. -/
theorem assuming {fact : Prop} (kept : fact → Keeps discipline pre body mid) :
    Keeps discipline (fun self => fact ∧ pre self) body mid :=
  fun self invariant holds => kept holds.1 self invariant holds.2

/-- A condition that the relation carries along. -/
theorem carry {condition : σ → Prop}
    (stable : ∀ before after, discipline.rel before after → condition before → condition after)
    (kept : Keeps discipline pre body mid) :
    Keeps discipline (fun self => condition self ∧ pre self) body
      fun value after => condition after ∧ mid value after := by
  intro self invariant holds
  have ran := kept self invariant holds.2
  cases outcome : body self with
  | illegal => trivial
  | fail error after =>
      rw [outcome] at ran
      exact ran
  | ok value after =>
      rw [outcome] at ran
      exact ⟨ran.1, ran.2.1, stable self after ran.2.1 holds.1, ran.2.2⟩

theorem ofExists {ι : Sort*} {pre : ι → σ → Prop}
    (kept : ∀ index, Keeps discipline (pre index) body mid) :
    Keeps discipline (fun self => ∃ index, pre index self) body mid := by
  rintro self invariant ⟨index, holds⟩
  exact kept index self invariant holds

theorem safe (kept : Keeps discipline (fun _ => True) body mid) : Safe discipline body :=
  kept.imp (fun _ holds => holds) fun _ _ _ => trivial

theorem pure (value : α) : Keeps discipline pre (pure value : Action σ ε α)
    fun result after => result = value ∧ pre after :=
  fun _ invariant holds => ⟨invariant, discipline.refl invariant, rfl, holds⟩

/-- What returning a value makes known. -/
theorem returns {value : α} (known : ∀ result after, result = value ∧ pre after → mid result after) :
    Keeps discipline pre (Pure.pure value : Action σ ε α) mid :=
  (Keeps.pure value).weaken known

theorem fail (error : ε) : Keeps discipline pre (Action.fail error : Action σ ε α) mid :=
  fun _ invariant _ => ⟨invariant, discipline.refl invariant⟩

theorem illegal : Keeps discipline pre (Action.illegal : Action σ ε α) mid :=
  fun _ _ _ => trivial

theorem get : Keeps discipline pre (Action.get : Action σ ε σ)
    fun value after => value = after ∧ pre after :=
  fun _ invariant holds => ⟨invariant, discipline.refl invariant, rfl, holds⟩

theorem read (projection : σ → α) : Keeps discipline pre (Action.read projection : Action σ ε α)
    fun value after => value = projection after ∧ pre after :=
  fun _ invariant holds => ⟨invariant, discipline.refl invariant, rfl, holds⟩

theorem assert (condition : σ → Prop) [DecidablePred condition] :
    Keeps discipline pre (Action.assert condition : Action σ ε Unit)
      fun _ after => condition after ∧ pre after := by
  intro self invariant holds
  unfold Action.assert
  split
  · rename_i true
    exact ⟨invariant, discipline.refl invariant, true, holds⟩
  · trivial

theorem modify {update : σ → σ} {post : Unit → σ → Prop}
    (step : ∀ self, discipline.inv self → pre self →
      discipline.inv (update self) ∧ discipline.rel self (update self) ∧ post () (update self)) :
    Keeps discipline pre (Action.modify update : Action σ ε Unit) post :=
  fun self invariant holds => step self invariant holds

theorem liftOption (value : Option α) :
    Keeps discipline pre (liftM value : Action σ ε α)
      fun result after => value = some result ∧ pre after := by
  intro self invariant holds
  cases value with
  | none => trivial
  | some value => exact ⟨invariant, discipline.refl invariant, rfl, holds⟩

theorem when (condition : Prop) [Decidable condition] {body : Action σ ε Unit}
    {post : Unit → σ → Prop}
    (taken : condition → Keeps discipline pre body post)
    (skipped : ¬condition → ∀ self, pre self → post () self) :
    Keeps discipline pre (Action.when condition body) post := by
  unfold Action.when
  split
  · rename_i true
    exact taken true
  · rename_i false
    exact fun self invariant holds =>
      ⟨invariant, discipline.refl invariant, skipped false self holds⟩

end Keeps

namespace Safe

theorem bind (first : Safe discipline body) (second : ∀ value, Safe discipline (next value)) :
    Safe discipline (body >>= next) :=
  Keeps.bind first second

theorem pure (value : α) : Safe discipline (pure value : Action σ ε α) :=
  (Keeps.pure value).safe

theorem fail (error : ε) : Safe discipline (Action.fail error : Action σ ε α) := Keeps.fail error

theorem illegal : Safe discipline (Action.illegal : Action σ ε α) := Keeps.illegal

theorem get : Safe discipline (Action.get : Action σ ε σ) := Keeps.get.safe

theorem read (projection : σ → α) : Safe discipline (Action.read projection : Action σ ε α) :=
  (Keeps.read projection).safe

theorem assert (condition : σ → Prop) [DecidablePred condition] :
    Safe discipline (Action.assert condition : Action σ ε Unit) :=
  (Keeps.assert condition).safe

theorem liftOption (value : Option α) : Safe discipline (liftM value : Action σ ε α) :=
  (Keeps.liftOption value).safe

theorem when {condition : Prop} [Decidable condition] {body : Action σ ε Unit}
    (safe : Safe discipline body) : Safe discipline (Action.when condition body) :=
  Keeps.when condition (fun _ => safe) fun _ _ _ => trivial

theorem map (transform : α → β) (safe : Safe discipline body) :
    Safe discipline (transform <$> body) := by
  rw [← bind_pure_comp]
  exact safe.bind fun value => Safe.pure _

theorem discard (safe : Safe discipline body) : Safe discipline (Functor.discard body) :=
  safe.map _

theorem forEach {ι : Type} {body : ι → Action σ ε Unit} (safe : ∀ item, Safe discipline (body item))
    (items : List ι) : Safe discipline (Action.forEach body items) := by
  induction items with
  | nil => exact Safe.pure ()
  | cons item items ih => exact (safe item).bind fun _ => ih

end Safe

end EvmZig.Zig
