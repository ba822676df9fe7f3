import Mathlib.Algebra.Order.Ring.Int
import Mathlib.Order.Fin.Basic
import Mathlib.Tactic.Common
import Mathlib.Logic.Function.Iterate

/-!
# Walks that only move forward

A step takes every position to a later one.  The walk from a start visits a
chain of positions; cut at a bound, it leaves through the first position at or
past the bound.  Hops of two lengths compose, so doubling them reaches the exit
in logarithmically many rounds.
-/

set_option autoImplicit false

namespace EvmZig.Lib

/-- `step` takes every position to a later one. -/
def Forward (step : Nat → Nat) : Prop := ∀ place, place < step place

/-- The walk from `start` comes to `place`. -/
def Reaches (step : Nat → Nat) (start place : Nat) : Prop := ∃ steps, step^[steps] start = place

/-- Up to `steps` steps, which stop at the first position not below `bound`. -/
def hop (step : Nat → Nat) (bound : Nat) : (steps place : Nat) → Nat
  | 0, place => place
  | steps + 1, place => if place < bound then hop step bound steps (step place) else place

/-- `place` is below the bound and among the first `steps` positions from `start`. -/
def Visits (step : Nat → Nat) (bound steps start place : Nat) : Prop :=
  place < bound ∧ ∃ earlier < steps, hop step bound earlier start = place

section

variable {step : Nat → Nat} {bound start place middle more steps : Nat}

namespace Reaches

theorem refl (start : Nat) : Reaches step start start := ⟨0, rfl⟩

theorem next (reaches : Reaches step start place) : Reaches step start (step place) := by
  obtain ⟨steps, rfl⟩ := reaches
  exact ⟨steps + 1, Function.iterate_succ_apply' ..⟩

theorem trans (first : Reaches step start middle) (second : Reaches step middle place) :
    Reaches step start place := by
  obtain ⟨steps, rfl⟩ := first
  obtain ⟨more, rfl⟩ := second
  exact ⟨more + steps, Function.iterate_add_apply ..⟩

theorem le (forward : Forward step) (reaches : Reaches step start place) : start ≤ place := by
  obtain ⟨steps, rfl⟩ := reaches
  induction steps with
  | zero => exact Nat.le_refl _
  | succ steps ih =>
      rw [Function.iterate_succ_apply']
      exact Nat.le_trans ih (Nat.le_of_lt (forward _))

/-- The positions of a walk are a chain. -/
theorem split (forward : Forward step) (passes : Reaches step start middle) :
    Reaches step start place ↔
      place < middle ∧ Reaches step start place ∨ Reaches step middle place := by
  constructor
  · intro reaches
    obtain ⟨steps, arrives⟩ := passes
    obtain ⟨more, lands⟩ := reaches
    by_cases later : steps ≤ more
    · refine .inr ⟨more - steps, ?_⟩
      rw [← arrives, ← Function.iterate_add_apply, Nat.sub_add_cancel later]
      exact lands
    · refine .inl ⟨?_, more, lands⟩
      have onward : Reaches step (step place) middle := by
        refine ⟨steps - more - 1, ?_⟩
        rw [← lands, ← Function.iterate_succ_apply, ← Function.iterate_add_apply, ← arrives]
        congr 1
        omega
      exact Nat.lt_of_lt_of_le (forward place) (onward.le forward)
  · rintro (before | after)
    · exact before.2
    · exact passes.trans after

end Reaches

theorem hop_past (past : bound ≤ place) : hop step bound steps place = place := by
  cases steps with
  | zero => rfl
  | succ steps => exact if_neg (Nat.not_lt.mpr past)

theorem hop_add (steps more place : Nat) :
    hop step bound (steps + more) place = hop step bound more (hop step bound steps place) := by
  induction steps generalizing place with
  | zero => rw [Nat.zero_add, hop]
  | succ steps ih =>
      rw [Nat.succ_add, hop, hop]
      by_cases inside : place < bound
      · rw [if_pos inside, if_pos inside, ih]
      · rw [if_neg inside, if_neg inside, hop_past (Nat.le_of_not_lt inside)]

theorem hop_reaches (steps place : Nat) : Reaches step place (hop step bound steps place) := by
  induction steps generalizing place with
  | zero => exact .refl place
  | succ steps ih =>
      rw [hop]
      split
      · exact ((Reaches.refl place).next).trans (ih _)
      · exact .refl place

/-- A position inside the bound has cost as many steps as hops. -/
theorem hop_advances (forward : Forward step) (inside : hop step bound steps place < bound) :
    place + steps ≤ hop step bound steps place := by
  induction steps generalizing place with
  | zero => exact Nat.le_refl _
  | succ steps ih =>
      rw [hop] at inside ⊢
      split at inside
      · rename_i here
        rw [if_pos here]
        have onward := ih inside
        have moved := forward place
        omega
      · rename_i past
        exact absurd inside past

/-- As many hops as there are positions leave the bound. -/
theorem hop_leaves (forward : Forward step) (enough : bound ≤ place + steps) :
    bound ≤ hop step bound steps place := by
  by_contra inside
  have advances := hop_advances forward (Nat.lt_of_not_le inside)
  omega

theorem hop_le {limit : Nat} (steps_le : ∀ place < bound, step place ≤ limit)
    (start_le : place ≤ limit) : hop step bound steps place ≤ limit := by
  induction steps generalizing place with
  | zero => exact start_le
  | succ steps ih =>
      rw [hop]
      split
      · rename_i inside
        exact ih (steps_le place inside)
      · exact start_le

/-! ## Walks read from another origin -/

variable {moved : Nat → Nat} {base : Nat}

theorem reaches_shift (same : ∀ place, base + moved place = step (base + place)) :
    Reaches moved start place ↔ Reaches step (base + start) (base + place) := by
  have shifted : ∀ steps, base + moved^[steps] start = step^[steps] (base + start) := by
    intro steps
    induction steps with
    | zero => rfl
    | succ steps ih => rw [Function.iterate_succ_apply', Function.iterate_succ_apply', same, ih]
  exact exists_congr fun steps => by rw [← shifted, Nat.add_left_cancel_iff]

theorem hop_shift (same : ∀ place, base + moved place = step (base + place)) (steps place : Nat) :
    base + hop moved bound steps place = hop step (base + bound) steps (base + place) := by
  induction steps generalizing place with
  | zero => rfl
  | succ steps ih =>
      rw [hop, hop]
      by_cases inside : place < bound
      · rw [if_pos inside, if_pos (Nat.add_lt_add_left inside base), ih, same]
      · rw [if_neg inside, if_neg (by omega)]

/-! ## Doubling -/

theorem Visits.double (steps more start place : Nat) :
    Visits step bound (steps + more) start place ↔
      Visits step bound steps start place ∨
        Visits step bound more (hop step bound steps start) place := by
  constructor
  · rintro ⟨inside, earlier, before, lands⟩
    by_cases first : earlier < steps
    · exact .inl ⟨inside, earlier, first, lands⟩
    · refine .inr ⟨inside, earlier - steps, by omega, ?_⟩
      rw [← hop_add, Nat.add_sub_cancel' (Nat.le_of_not_lt first)]
      exact lands
  · rintro (⟨inside, earlier, before, lands⟩ | ⟨inside, earlier, before, lands⟩)
    · exact ⟨inside, earlier, by omega, lands⟩
    · refine ⟨inside, steps + earlier, by omega, ?_⟩
      rw [hop_add]
      exact lands

/-- Past the bound nothing is visited. -/
theorem Visits.not_past (past : bound ≤ start) : ¬Visits step bound steps start place := by
  rintro ⟨inside, earlier, -, lands⟩
  rw [hop_past past] at lands
  omega

theorem Visits.one : Visits step bound 1 start place ↔ start < bound ∧ place = start := by
  constructor
  · rintro ⟨inside, earlier, first, lands⟩
    obtain rfl : earlier = 0 := by omega
    cases lands
    exact ⟨inside, rfl⟩
  · rintro ⟨inside, rfl⟩
    exact ⟨inside, 0, Nat.one_pos, rfl⟩

/-- Steps beyond the positions left add no visits. -/
theorem Visits.enough (forward : Forward step) (enough : place < start + steps) :
    Visits step bound (steps + more) start place ↔ Visits step bound steps start place := by
  constructor
  · rintro ⟨inside, earlier, before, lands⟩
    have advances := @hop_advances _ bound start earlier forward (lands ▸ inside)
    exact ⟨inside, earlier, by omega, lands⟩
  · rintro ⟨inside, earlier, before, lands⟩
    exact ⟨inside, earlier, by omega, lands⟩

/-- With enough steps, the visits are the positions the walk reaches below the bound. -/
theorem Visits.reaches (forward : Forward step) (enough : bound ≤ start + steps) :
    Visits step bound steps start place ↔ place < bound ∧ Reaches step start place := by
  constructor
  · rintro ⟨inside, earlier, -, rfl⟩
    exact ⟨inside, hop_reaches earlier start⟩
  · rintro ⟨inside, count, lands⟩
    have hops : ∀ count start, step^[count] start < bound →
        hop step bound count start = step^[count] start := by
      intro count
      induction count with
      | zero => exact fun _ _ => rfl
      | succ count ih =>
          intro start below
          rw [Function.iterate_succ_apply] at below ⊢
          have here : start < bound := by
            have moved := forward start
            have onward : step start ≤ step^[count] (step start) := Reaches.le forward ⟨count, rfl⟩
            omega
          rw [hop, if_pos here]
          exact ih (step start) below
    have arrives := (hops count start (lands ▸ inside)).trans lands
    have advances := @hop_advances _ bound start count forward (arrives ▸ inside)
    exact ⟨inside, count, by omega, arrives⟩

/-- The exit of a walk is the first position it reaches at or past the bound. -/
theorem exit_first (forward : Forward step) (enough : bound ≤ start + steps) :
    Reaches step start place ∧ place < hop step bound steps start ↔
      Reaches step start place ∧ (start < bound ∧ place < bound) := by
  have leaves := @hop_leaves step bound start steps forward enough
  constructor
  · rintro ⟨reaches, before⟩
    have exits : Reaches step start (hop step bound steps start) := hop_reaches steps start
    have inside : start < bound := by
      by_contra past
      rw [hop_past (Nat.le_of_not_lt past)] at before
      have onward := reaches.le forward
      omega
    refine ⟨reaches, inside, ?_⟩
    by_contra past
    -- the exit is reached on the way to any position past the bound
    have passes : ∀ count start, bound ≤ step^[count] start → ∀ steps, bound ≤ start + steps →
        hop step bound steps start ≤ step^[count] start := by
      intro count
      induction count with
      | zero =>
          intro start beyond steps _
          rw [Function.iterate_zero_apply] at beyond ⊢
          exact Nat.le_of_eq (hop_past beyond)
      | succ count ih =>
          intro start beyond steps room
          by_cases here : start < bound
          · obtain ⟨fewer, rfl⟩ : ∃ fewer, steps = fewer + 1 := ⟨steps - 1, by omega⟩
            rw [hop, if_pos here]
            rw [Function.iterate_succ_apply] at beyond ⊢
            have moved := forward start
            exact ih (step start) beyond fewer (by omega)
          · rw [hop_past (Nat.le_of_not_lt here)]
            exact Reaches.le forward ⟨count + 1, rfl⟩
    obtain ⟨count, lands⟩ := reaches
    have late := passes count start (lands ▸ Nat.le_of_not_lt past) steps enough
    omega
  · rintro ⟨reaches, -, inside⟩
    exact ⟨reaches, by omega⟩

end

end EvmZig.Lib
