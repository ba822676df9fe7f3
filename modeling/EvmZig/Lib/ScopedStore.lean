import Mathlib.Algebra.Order.Ring.Int
import Mathlib.Order.Fin.Basic
import Mathlib.Data.List.Basic
import Mathlib.Logic.Function.Basic

/-!
# Stores under scopes, wiped for good

A store with the values each open scope goes back to.  Wiping takes the saved
values along, so that no scope goes back behind a wipe.  An implementation that
keeps undo records, and leaves them when it wipes, follows the store until it
closes a scope over a record that is older than the wipe.
-/

set_option autoImplicit false

namespace EvmZig.Lib

/-- What an open scope goes back to, and whether the store was wiped under it. -/
structure Saved (κ ν : Type) where
  values : κ → ν
  wiped : Bool

/-- Open scopes are listed innermost first. -/
structure ScopedStore (κ ν : Type) where
  current : κ → ν
  scopes : List (Saved κ ν)
  /-- The writes since the last wipe. -/
  written : List (κ × ν)

variable {κ ν : Type} {blank : ν}

namespace ScopedStore

def start (blank : ν) : ScopedStore κ ν := ⟨fun _ => blank, [], []⟩

def write [DecidableEq κ] (key : κ) (value : ν) (store : ScopedStore κ ν) : ScopedStore κ ν :=
  { store with
    current := Function.update store.current key value
    written := (key, value) :: store.written }

def openScope (store : ScopedStore κ ν) : ScopedStore κ ν :=
  { store with scopes := ⟨store.current, false⟩ :: store.scopes }

def commit (store : ScopedStore κ ν) : ScopedStore κ ν :=
  { store with scopes := store.scopes.tail }

def revert (store : ScopedStore κ ν) : ScopedStore κ ν :=
  match store.scopes with
  | [] => store
  | saved :: scopes => { store with current := saved.values, scopes }

def wipe (blank : ν) (store : ScopedStore κ ν) : ScopedStore κ ν :=
  ⟨fun _ => blank, store.scopes.map fun _ => ⟨fun _ => blank, true⟩, []⟩

/-- Whatever a slot holds was written since the last wipe. -/
structure Fresh (blank : ν) (store : ScopedStore κ ν) : Prop where
  current : ∀ key, store.current key ≠ blank → (key, store.current key) ∈ store.written
  saved : ∀ saved ∈ store.scopes, ∀ key, saved.values key ≠ blank →
    (key, saved.values key) ∈ store.written

namespace Fresh

variable {store : ScopedStore κ ν}

theorem start : (ScopedStore.start blank : ScopedStore κ ν).Fresh blank :=
  ⟨fun _ held => absurd rfl held, fun _ member => nomatch member⟩

theorem write [DecidableEq κ] (fresh : store.Fresh blank) (key : κ) (value : ν) :
    (store.write key value).Fresh blank := by
  refine ⟨fun other held => ?_, fun saved member other held => ?_⟩
  · by_cases same : other = key
    · subst same
      simp only [ScopedStore.write, Function.update_self]
      exact List.mem_cons_self
    · simp only [ScopedStore.write, Function.update_of_ne same] at held ⊢
      exact List.mem_cons_of_mem _ (fresh.current other held)
  · exact List.mem_cons_of_mem _ (fresh.saved saved member other held)

theorem openScope (fresh : store.Fresh blank) : store.openScope.Fresh blank := by
  refine ⟨fresh.current, fun saved member key held => ?_⟩
  rcases List.mem_cons.mp member with rfl | older
  · exact fresh.current key held
  · exact fresh.saved saved older key held

theorem commit (fresh : store.Fresh blank) : store.commit.Fresh blank :=
  ⟨fresh.current, fun saved member => fresh.saved saved (List.mem_of_mem_tail member)⟩

theorem revert (fresh : store.Fresh blank) : store.revert.Fresh blank := by
  unfold ScopedStore.revert
  split
  · exact fresh
  · rename_i saved scopes stack
    have within : ∀ other ∈ saved :: scopes, other ∈ store.scopes := fun other member => stack ▸ member
    exact ⟨fresh.saved saved (within saved List.mem_cons_self), fun other member =>
      fresh.saved other (within other (List.mem_cons_of_mem _ member))⟩

theorem wipe : (store.wipe blank).Fresh blank := by
  refine ⟨fun _ held => absurd rfl held, fun saved member key held => ?_⟩
  obtain ⟨_, -, rfl⟩ := List.mem_map.mp member
  exact absurd rfl held

end Fresh

end ScopedStore

/-! ## Undo records -/

variable [DecidableEq κ]

/-- Put back what the records saved, newest record first. -/
def rewind : List (κ × ν) → (κ → ν) → κ → ν
  | [], values => values
  | (key, previous) :: older, values => rewind older (Function.update values key previous)

/-- What the oldest record of the key saved. -/
def oldest (undos : List (κ × ν)) (key : κ) : Option ν := undos.reverse.lookup key

theorem oldest_cons (key other : κ) (previous : ν) (undos : List (κ × ν)) :
    oldest ((key, previous) :: undos) other =
      (oldest undos other).or (if other = key then some previous else none) := by
  rw [oldest, List.reverse_cons, List.lookup_append]
  congr 1
  by_cases same : other = key
  · subst same
    simp
  · have differs : (other == key) = false := beq_false_of_ne same
    simp [List.lookup_cons, same, differs]

theorem oldest_append (newer older : List (κ × ν)) (key : κ) :
    oldest (newer ++ older) key = (oldest older key).or (oldest newer key) := by
  rw [oldest, List.reverse_append, List.lookup_append]
  rfl

/-- Of the records of a key only the oldest one counts. -/
theorem rewind_apply (undos : List (κ × ν)) (values : κ → ν) (key : κ) :
    rewind undos values key = (oldest undos key).getD (values key) := by
  induction undos generalizing values with
  | nil => rfl
  | cons undo older ih =>
      obtain ⟨changed, previous⟩ := undo
      rw [rewind, ih, oldest_cons]
      cases oldest older key with
      | some saved => rfl
      | none =>
          by_cases same : key = changed
          · subst same
            simp
          · simp [same]

theorem rewind_append (newer older : List (κ × ν)) (values : κ → ν) :
    rewind (newer ++ older) values = rewind older (rewind newer values) := by
  induction newer generalizing values with
  | nil => rfl
  | cons undo newer ih => exact ih _

/-! ## Following a store -/

/-- The records made under a scope, and what they give back. -/
structure Recorded (blank : ν) (values : κ → ν) (undos : List (κ × ν)) (saved : Saved κ ν) :
    Prop where
  kept : saved.wiped = false → rewind undos values = saved.values
  /-- A slot with no record has held nothing since the wipe. -/
  unrecorded : saved.wiped = true → ∀ key, oldest undos key = none → values key = blank
  blank : saved.wiped = true → ∀ key, saved.values key = blank

/-- The records of each open scope, innermost first, fit what the store saved for it. -/
inductive Tracks (blank : ν) : (κ → ν) → List (List (κ × ν)) → List (Saved κ ν) → Prop
  | root {values : κ → ν} : Tracks blank values [] []
  | scope {values : κ → ν} {undos : List (κ × ν)} {saved : Saved κ ν}
      {segments : List (List (κ × ν))} {scopes : List (Saved κ ν)}
      (recorded : Recorded blank values undos saved)
      (around : saved.wiped = true → ∀ outer ∈ scopes, outer.wiped = true)
      (rest : Tracks blank saved.values segments scopes) :
      Tracks blank values (undos :: segments) (saved :: scopes)

/-- No record would put back a value from before a wipe. -/
def Harmless (blank : ν) (undos : List (κ × ν)) (saved : Saved κ ν) : Prop :=
  saved.wiped = true → ∀ key previous, oldest undos key = some previous → previous = blank

namespace Tracks

variable {values : κ → ν} {undos : List (κ × ν)} {saved : Saved κ ν}
  {segments : List (List (κ × ν))} {scopes : List (Saved κ ν)}

theorem scopes_cons (tracks : Tracks blank values (undos :: segments) scopes) :
    ∃ saved outer, scopes = saved :: outer := by
  cases tracks with
  | scope => exact ⟨_, _, rfl⟩

theorem openScope (tracks : Tracks blank values segments scopes) :
    Tracks blank values ([] :: segments) (⟨values, false⟩ :: scopes) := by
  refine .scope ⟨fun _ => rfl, ?_, ?_⟩ ?_ tracks
  all_goals
    intro wiped
    cases wiped

/-- Add a record to the innermost scope. -/
def record (undo : κ × ν) : List (List (κ × ν)) → List (List (κ × ν))
  | [] => []
  | undos :: segments => (undo :: undos) :: segments

theorem write (tracks : Tracks blank values segments scopes) (key : κ) (value : ν) :
    Tracks blank (Function.update values key value) (record (key, values key) segments) scopes := by
  cases tracks with
  | root => exact .root
  | scope recorded around rest =>
      refine .scope ⟨fun notWiped => ?_, fun wiped other missing => ?_, recorded.blank⟩ around rest
      · rw [rewind, Function.update_idem, Function.update_eq_self]
        exact recorded.kept notWiped
      · rw [oldest_cons, Option.or_eq_none_iff] at missing
        have apart : other ≠ key := by
          intro same
          rw [if_pos same] at missing
          cases missing.2
        rw [Function.update_of_ne apart]
        exact recorded.unrecorded wiped other missing.1

/-- Hand the records of a scope to the one around it. -/
def merge (undos : List (κ × ν)) : List (List (κ × ν)) → List (List (κ × ν))
  | [] => []
  | outer :: segments => (undos ++ outer) :: segments

theorem commit (tracks : Tracks blank values (undos :: segments) (saved :: scopes)) :
    Tracks blank values (merge undos segments) scopes := by
  cases tracks with
  | scope recorded around rest =>
      cases rest with
      | root => exact .root
      | scope outer outerAround outerRest =>
          refine .scope ⟨fun notWiped => ?_, fun wiped key missing => ?_, outer.blank⟩ outerAround
            outerRest
          · have innerKept : saved.wiped = false := by
              rw [← Bool.not_eq_true]
              intro wiped
              have outerWiped := around wiped _ List.mem_cons_self
              rw [notWiped] at outerWiped
              cases outerWiped
            rw [rewind_append, recorded.kept innerKept]
            exact outer.kept notWiped
          · rw [oldest_append, Option.or_eq_none_iff] at missing
            have held := outer.unrecorded wiped key missing.1
            cases innerWiped : saved.wiped with
            | true => exact recorded.unrecorded innerWiped key missing.2
            | false =>
                rw [← recorded.kept innerWiped, rewind_apply, missing.2] at held
                exact held

/-- Unwinding gives back what the store saved just where it is harmless. -/
theorem unwound_iff (tracks : Tracks blank values (undos :: segments) (saved :: scopes)) :
    rewind undos values = saved.values ↔ Harmless blank undos saved := by
  cases tracks with
  | scope recorded around rest =>
      constructor
      · intro same wiped key previous found
        have here := congrFun same key
        rw [rewind_apply, found, recorded.blank wiped] at here
        exact here
      · intro harmless
        cases wiped : saved.wiped with
        | false => exact recorded.kept wiped
        | true =>
            funext key
            rw [rewind_apply, recorded.blank wiped]
            cases found : oldest undos key with
            | none => exact recorded.unrecorded wiped key found
            | some previous => exact harmless wiped key previous found

theorem revert (tracks : Tracks blank values (undos :: segments) (saved :: scopes)) :
    Tracks blank saved.values segments scopes := by
  cases tracks with
  | scope recorded around rest => exact rest

theorem wipe (tracks : Tracks blank values segments scopes) :
    Tracks blank (fun _ => blank) segments (scopes.map fun _ => ⟨fun _ => blank, true⟩) := by
  induction tracks with
  | root => exact .root
  | scope recorded around rest ih =>
      refine .scope ⟨fun notWiped => (by cases notWiped), fun _ _ _ => rfl, fun _ _ => rfl⟩ ?_ ih
      intro _ outer member
      obtain ⟨_, -, rfl⟩ := List.mem_map.mp member
      rfl

end Tracks

end EvmZig.Lib
