import EvmZig.Zig.Checked

/-!
# Methods that do not see a part of the state

Two states are alike when they agree outside what `forget` erases.  A method is
blind when, from like states, two runs that return give the same and end alike;
one run returns alone only where a request may be `denied`.
-/

set_option autoImplicit false

namespace EvmZig.Zig

structure Blindfold (σ : Type) where
  forget : σ → σ
  /-- What holds of every state after the runs began. -/
  ready : σ → Prop
  denied : Prop

variable {σ ε α β γ δ : Type} {fold : Blindfold σ}

structure Blindfold.Alike (fold : Blindfold σ) (left right : σ) : Prop where
  forget : fold.forget left = fold.forget right
  left : fold.ready left
  right : fold.ready right

/-- What two runs from like states end in. -/
def Blindfold.Meets (fold : Blindfold σ) (same : α → β → Prop) :
    Outcome σ ε α → Outcome σ ε β → Prop
  | .ok one left, .ok two right => same one two ∧ fold.Alike left right
  | .ok _ _, _ => fold.denied
  | _, .ok _ _ => fold.denied
  | _, _ => True

/-- From like states the results agree as far as `see` tells them apart. -/
def Sees (fold : Blindfold σ) (see : α → β) (body : Action σ ε α) : Prop :=
  ∀ left right, fold.Alike left right →
    fold.Meets (fun one two => see one = see two) (body left) (body right)

def Blind (fold : Blindfold σ) (body : Action σ ε α) : Prop := Sees fold id body

/-- Where no request is denied, one run returns where the other does. -/
theorem Blindfold.Meets.forward {same : α → β → Prop} {first : Outcome σ ε α}
    {second : Outcome σ ε β} {one : α} {after : σ} (meets : fold.Meets same first second)
    (granted : ¬fold.denied) (ran : first = .ok one after) :
    ∃ two last, second = .ok two last ∧ same one two := by
  subst ran
  cases second with
  | ok two last => exact ⟨two, last, rfl, meets.1⟩
  | fail error last => exact (granted meets).elim
  | illegal => exact (granted meets).elim

theorem Blindfold.Meets.backward {same : α → β → Prop} {first : Outcome σ ε α}
    {second : Outcome σ ε β} {two : β} {last : σ} (meets : fold.Meets same first second)
    (granted : ¬fold.denied) (ran : second = .ok two last) :
    ∃ one after, first = .ok one after ∧ same one two := by
  subst ran
  cases first with
  | ok one after => exact ⟨one, after, rfl, meets.1⟩
  | fail error after => exact (granted meets).elim
  | illegal => exact (granted meets).elim

theorem Blindfold.Meets.bind {same : α → β → Prop} {same' : γ → δ → Prop} {body : Action σ ε α}
    {body' : Action σ ε β} {next : α → Action σ ε γ} {next' : β → Action σ ε δ} {left right : σ}
    (meets : fold.Meets same (body left) (body' right))
    (rest : ∀ one two after last, body left = .ok one after → same one two →
      fold.Alike after last → fold.Meets same' (next one after) (next' two last)) :
    fold.Meets same' ((body >>= next) left) ((body' >>= next') right) := by
  rw [Action.bind_run, Action.bind_run]
  cases ran : body left with
  | ok one after =>
      rw [ran] at meets
      cases ran' : body' right with
      | ok two last =>
          rw [ran'] at meets
          exact rest one two after last ran meets.1 meets.2
      | fail error last =>
          rw [ran'] at meets
          dsimp only
          cases next one after <;> first | exact meets | trivial
      | illegal =>
          rw [ran'] at meets
          dsimp only
          cases next one after <;> first | exact meets | trivial
  | fail error after =>
      rw [ran] at meets
      cases ran' : body' right with
      | ok two last =>
          rw [ran'] at meets
          dsimp only
          cases next' two last <;> first | exact meets | trivial
      | _ => trivial
  | illegal =>
      rw [ran] at meets
      cases ran' : body' right with
      | ok two last =>
          rw [ran'] at meets
          dsimp only
          cases next' two last <;> first | exact meets | trivial
      | _ => trivial

/-- What follows a result uses no more of it than `see` tells. -/
theorem Sees.bind {see : α → α} {body : Action σ ε α} {next : α → Action σ ε γ}
    (sees : Sees fold see body) (reads : ∀ value, next value = next (see value))
    (rest : ∀ value, Blind fold (next value)) : Blind fold (body >>= next) := by
  intro left right alike
  refine (sees left right alike).bind fun one two after last _ same alike => ?_
  rw [reads one, same, ← reads two]
  exact rest two after last alike

theorem Blind.bind {body : Action σ ε α} {next : α → Action σ ε γ} (blind : Blind fold body)
    (rest : ∀ value, Blind fold (next value)) : Blind fold (body >>= next) :=
  Sees.bind blind (fun _ => rfl) rest

namespace Blind

theorem pure (value : α) : Blind fold (pure value : Action σ ε α) := fun _ _ alike => ⟨rfl, alike⟩

theorem illegal : Blind fold (Action.illegal : Action σ ε α) := fun _ _ _ => trivial

theorem fail (error : ε) : Blind fold (Action.fail error : Action σ ε α) := fun _ _ _ => trivial

theorem map (transform : α → γ) {body : Action σ ε α} (blind : Blind fold body) :
    Blind fold (transform <$> body) := by
  rw [← bind_pure_comp]
  exact blind.bind fun value => Blind.pure (transform value)

theorem get : Sees fold fold.forget (Action.get : Action σ ε σ) :=
  fun _ _ alike => ⟨alike.forget, alike⟩

theorem assert {condition : σ → Prop} [DecidablePred condition]
    (reads : ∀ self, condition self = condition (fold.forget self)) :
    Blind fold (Action.assert condition : Action σ ε Unit) := by
  intro left right alike
  have same : condition left = condition right := by
    rw [reads left, alike.forget, ← reads right]
  unfold Action.assert
  by_cases holds : condition left
  · rw [if_pos holds, if_pos (same ▸ holds)]
    exact ⟨rfl, alike⟩
  · rw [if_neg holds, if_neg (same ▸ holds)]
    trivial

theorem modify {update : σ → σ}
    (commutes : ∀ self, fold.forget (update self) = update (fold.forget self))
    (stays : ∀ self, fold.ready self → fold.ready (update self)) :
    Blind fold (Action.modify update : Action σ ε Unit) := by
  intro left right alike
  refine ⟨rfl, ?_, stays left alike.left, stays right alike.right⟩
  rw [commutes, commutes, alike.forget]

theorem when {condition : Prop} [Decidable condition] {body : Action σ ε Unit}
    (blind : Blind fold body) : Blind fold (Action.when condition body) := by
  unfold Action.when
  split
  · exact blind
  · exact Blind.pure ()

end Blind

end EvmZig.Zig
