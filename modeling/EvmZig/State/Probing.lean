import Mathlib.Data.Finset.Card
import Mathlib.Data.Nat.Find
import Mathlib.Data.Nat.ModEq
import EvmZig.State.SparseHashMap

/-!
# Probe tables

A table is sound when its slots and the rows point at each other, the keys are
distinct, a slot is free, and every row is reached from its home slot over
slots that are taken.  A row past `floor` is reached over the slots of older
rows alone, which is what lets `truncate` empty slots without repair.
-/

set_option autoImplicit false

namespace EvmZig.State

open Zig

namespace SparseHashMap

variable {K V : Type} {index : List Nat} {entries : List (SparseRow K V)} {hash : K → Nat}
  {floor bits slot row : Nat} {entry : SparseRow K V}

/-! ## Walking the slots -/

theorem homeSlot_eq (size : index.length = 2 ^ bits) (value : Nat) :
    homeSlot index.length value = some (value % index.length) := by
  have single : 2 ^ bits &&& (2 ^ bits - 1) = 0 := by
    rw [Nat.and_two_pow_sub_one_eq_mod, Nat.mod_self]
  simp [homeSlot, size, assert, single, Nat.and_two_pow_sub_one_eq_mod]

theorem nextSlot_eq (size : index.length = 2 ^ bits) (value : Nat) :
    nextSlot (value % index.length) index.length = (value + 1) % index.length := by
  rw [nextSlot, size, Nat.and_two_pow_sub_one_eq_mod, Nat.mod_add_mod]

/-- The slot some steps past another one. -/
def spot (slots base steps : Nat) : Nat := (base + steps) % slots

section Spots

variable {slots base left right : Nat}

theorem spot_lt (positive : 0 < slots) (base steps : Nat) : spot slots base steps < slots :=
  Nat.mod_lt _ positive

theorem spot_injective (leftLt : left < slots) (rightLt : right < slots)
    (same : spot slots base left = spot slots base right) : left = right := by
  have congruent : left ≡ right [MOD slots] := Nat.ModEq.add_left_cancel' base same
  exact congruent.eq_of_lt_of_lt leftLt rightLt

theorem exists_spot (base : Nat) (bounded : slot < slots) :
    ∃ steps < slots, spot slots base steps = slot := by
  have split : slots * (base / slots) + base % slots = base := Nat.div_add_mod base slots
  have baseLt : base % slots < slots := Nat.mod_lt _ (by omega)
  rcases Nat.lt_or_ge slot (base % slots) with before | after
  · refine ⟨slot + slots - base % slots, by omega, ?_⟩
    have sum : base + (slot + slots - base % slots) = slots * (base / slots + 1) + slot := by
      rw [Nat.mul_add, Nat.mul_one]
      omega
    rw [spot, sum, Nat.mul_add_mod, Nat.mod_eq_of_lt bounded]
  · refine ⟨slot - base % slots, by omega, ?_⟩
    have sum : base + (slot - base % slots) = slots * (base / slots) + slot := by omega
    rw [spot, sum, Nat.mul_add_mod, Nat.mod_eq_of_lt bounded]

theorem spot_home (base steps : Nat) : spot slots (base % slots) steps = spot slots base steps := by
  rw [spot, spot, Nat.mod_add_mod]

theorem spot_spot (base left right : Nat) :
    spot slots (spot slots base left) right = spot slots base (left + right) := by
  rw [spot, spot, spot, Nat.mod_add_mod, Nat.add_assoc]

end Spots

/-- The search ends at the first slot that is free or has what is sought. -/
theorem seek_eq (size : index.length = 2 ^ bits) (found : Nat → Option Bool) (base : Nat) :
    ∀ (steps start fuel : Nat), steps < fuel →
      (∀ earlier < steps, ∃ row, index[spot index.length base (start + earlier)]? = some (row + 1) ∧
        found row = some false) →
      (index[spot index.length base (start + steps)]? = some 0 ∨
        ∃ row, index[spot index.length base (start + steps)]? = some (row + 1) ∧
          found row = some true) →
      seek index found fuel (spot index.length base start) =
        some (spot index.length base (start + steps)) := by
  intro steps
  induction steps with
  | zero =>
      intro start fuel enough _ ends
      obtain ⟨fuel, rfl⟩ : ∃ rest, fuel = rest + 1 := ⟨fuel - 1, by omega⟩
      rw [Nat.add_zero] at ends ⊢
      rcases ends with free | ⟨row, taken, hit⟩
      · simp [seek, free]
      · simp [seek, taken, hit]
  | succ steps inductionHypothesis =>
      intro start fuel enough passed ends
      obtain ⟨fuel, rfl⟩ : ∃ rest, fuel = rest + 1 := ⟨fuel - 1, by omega⟩
      obtain ⟨row, taken, miss⟩ := passed 0 (Nat.succ_pos _)
      rw [Nat.add_zero] at taken
      have next : nextSlot (spot index.length base start) index.length =
          spot index.length base (start + 1) := nextSlot_eq size (base + start)
      have shift : ∀ more, start + 1 + more = start + (more + 1) := fun more => by omega
      have rest := inductionHypothesis (start + 1) fuel (by omega)
        (fun earlier lt => by
          rw [shift]
          exact passed (earlier + 1) (by omega))
        (by rwa [shift])
      rw [shift] at rest
      simp [seek, taken, miss, next, rest]

/-! ## Sound tables -/

/-- `slot` is reached from `home` over slots of rows below `limit`. -/
def Chain (index : List Nat) (limit home slot : Nat) : Prop :=
  ∃ steps < index.length, slot = spot index.length home steps ∧
    ∀ earlier < steps, ∃ row < limit, index[spot index.length home earlier]? = some (row + 1)

structure Sound (hash : K → Nat) (floor : Nat) (index : List Nat)
    (entries : List (SparseRow K V)) : Prop where
  size : ∃ bits, index.length = 2 ^ bits
  spare : entries.length < index.length
  low : floor ≤ entries.length
  placed : ∀ (row : Nat) (entry : SparseRow K V), entries[row]? = some entry →
    index[entry.slot]? = some (row + 1)
  held : ∀ slot row : Nat, index[slot]? = some (row + 1) →
    ∃ entry, entries[row]? = some entry ∧ entry.slot = slot
  chained : ∀ (row : Nat) (entry : SparseRow K V), entries[row]? = some entry →
    Chain index (max floor row) (hash entry.key) entry.slot
  distinct : (entries.map SparseRow.key).Nodup

namespace Sound

variable (sound : Sound hash floor index entries)
include sound

theorem positive : 0 < index.length := Nat.lt_of_le_of_lt (Nat.zero_le _) sound.spare

theorem row_lt (taken : index[slot]? = some (row + 1)) : row < entries.length := by
  obtain ⟨entry, rowOf, _⟩ := sound.held slot row taken
  exact (List.getElem?_eq_some_iff.mp rowOf).1

theorem row_unique {left right : Nat} {leftEntry rightEntry : SparseRow K V}
    (leftRow : entries[left]? = some leftEntry) (rightRow : entries[right]? = some rightEntry)
    (same : leftEntry.slot = rightEntry.slot) : left = right := by
  have leftPlaced := sound.placed left leftEntry leftRow
  have rightPlaced := sound.placed right rightEntry rightRow
  rw [same, rightPlaced] at leftPlaced
  simpa using leftPlaced.symm

theorem row_of_key {left right : Nat} {leftEntry rightEntry : SparseRow K V}
    (leftRow : entries[left]? = some leftEntry) (rightRow : entries[right]? = some rightEntry)
    (same : leftEntry.key = rightEntry.key) : left = right := by
  have leftLt : left < (entries.map SparseRow.key).length := by
    simpa using (List.getElem?_eq_some_iff.mp leftRow).1
  apply (List.getElem?_inj leftLt sound.distinct).mp
  simp [leftRow, rightRow, same]

/-- Rows are fewer than slots, and no two of them share one. -/
theorem exists_free : ∃ slot : Nat, index[slot]? = some 0 := by
  by_contra full
  have taken : ∀ slot : Nat, slot < index.length → ∃ row, index[slot]? = some (row + 1) := by
    intro slot bounded
    cases stored : index[slot]? with
    | none => exact absurd (List.getElem?_eq_none_iff.mp stored) (by omega)
    | some value =>
        cases value with
        | zero => exact absurd ⟨slot, stored⟩ full
        | succ row => exact ⟨row, rfl⟩
  choose! row rowOf using taken
  have fewer : (Finset.range entries.length).card < (Finset.range index.length).card := by
    simpa using sound.spare
  have maps : ∀ slot ∈ Finset.range index.length, row slot ∈ Finset.range entries.length := by
    intro slot bounded
    exact Finset.mem_range.mpr (sound.row_lt (rowOf slot (Finset.mem_range.mp bounded)))
  obtain ⟨left, leftLt, right, rightLt, differ, same⟩ :=
    Finset.exists_ne_map_eq_of_card_lt_of_maps_to fewer maps
  have leftRow := rowOf left (by simpa using leftLt)
  have rightRow := rowOf right (by simpa using rightLt)
  rw [same] at leftRow
  obtain ⟨entry, entryRow, leftSlot⟩ := sound.held left _ leftRow
  obtain ⟨entry', entryRow', rightSlot⟩ := sound.held right _ rightRow
  rw [entryRow] at entryRow'
  cases entryRow'
  exact differ (leftSlot.symm.trans rightSlot)

/-- From every home slot a free one is reached over taken ones. -/
theorem exists_chain (home : Nat) :
    ∃ slot : Nat, index[slot]? = some 0 ∧ Chain index entries.length home slot := by
  obtain ⟨free, isFree⟩ := sound.exists_free
  obtain ⟨steps, stepsLt, atFree⟩ := exists_spot home (List.getElem?_eq_some_iff.mp isFree).1
  have someFree : ∃ steps, index[spot index.length home steps]? = some 0 := by
    exact ⟨steps, by rw [atFree, isFree]⟩
  classical
  refine ⟨spot index.length home (Nat.find someFree), Nat.find_spec someFree,
    Nat.find someFree, ?_, rfl, ?_⟩
  · exact Nat.lt_of_le_of_lt (Nat.find_min' someFree (by rw [atFree, isFree])) stepsLt
  · intro earlier before
    have notFree := Nat.find_min someFree before
    cases stored : index[spot index.length home earlier]? with
    | none =>
        have bounded := List.getElem?_eq_none_iff.mp stored
        exact absurd (spot_lt sound.positive home earlier) (by omega)
    | some value =>
        cases value with
        | zero => exact absurd stored notFree
        | succ row => exact ⟨row, sound.row_lt stored, rfl⟩

/-! ## Searching -/

theorem home_eq (value : Nat) :
    homeSlot index.length value = some (spot index.length value 0) := by
  obtain ⟨bits, size⟩ := sound.size
  rw [homeSlot_eq size]
  rfl

theorem findEmptySlotIn_eq (value : Nat) : ∃ slot, findEmptySlotIn index value = some slot ∧
    index[slot]? = some 0 ∧ Chain index entries.length value slot := by
  obtain ⟨bits, size⟩ := sound.size
  obtain ⟨slot, free, chain⟩ := sound.exists_chain value
  refine ⟨slot, ?_, free, chain⟩
  obtain ⟨steps, stepsLt, rfl, taken⟩ := chain
  have reached := seek_eq size (fun _ => some false) value steps 0 index.length stepsLt
    (fun earlier before => by
      obtain ⟨row, _, rowOf⟩ := taken earlier before
      exact ⟨row, by rwa [Nat.zero_add], rfl⟩)
    (.inl (by rwa [Nat.zero_add]))
  rw [Nat.zero_add] at reached
  simp [findEmptySlotIn, sound.home_eq, reached]

end Sound

section Lookup

variable [DecidableEq K] {self : SparseHashMap K V}
  (sound : Sound hash floor self.index self.entries)
include sound

theorem findSlotForInsert_present (rowOf : self.entries[row]? = some entry) :
    self.findSlotForInsert hash entry.key = some entry.slot := by
  obtain ⟨bits, size⟩ := sound.size
  have atSlot := sound.placed row entry rowOf
  obtain ⟨steps, stepsLt, slotEq, taken⟩ := sound.chained row entry rowOf
  have passed : ∀ earlier < steps, ∃ other,
      self.index[spot self.index.length (hash entry.key) (0 + earlier)]? = some (other + 1) ∧
        self.holdsKey entry.key other = some false := by
    intro earlier before
    obtain ⟨other, _, stored⟩ := taken earlier before
    obtain ⟨otherEntry, otherRow, otherSlot⟩ := sound.held _ other stored
    refine ⟨other, by rwa [Nat.zero_add], ?_⟩
    have differ : entry.key ≠ otherEntry.key := by
      intro same
      have sameRow := sound.row_of_key rowOf otherRow same
      subst sameRow
      rw [rowOf] at otherRow
      cases otherRow
      rw [slotEq] at otherSlot
      have sameSteps := spot_injective stepsLt (by omega) otherSlot
      omega
    simp [holdsKey, otherRow, differ]
  have reached := seek_eq size (self.holdsKey entry.key) (hash entry.key) steps 0
    self.index.length stepsLt passed
    (.inr ⟨row, by rwa [Nat.zero_add, ← slotEq], by simp [holdsKey, rowOf]⟩)
  rw [Nat.zero_add, ← slotEq] at reached
  simp [findSlotForInsert, sound.home_eq, reached]

theorem findSlotForInsert_absent {key : K} (absent : key ∉ self.entries.map SparseRow.key) :
    ∃ slot, self.findSlotForInsert hash key = some slot ∧ self.index[slot]? = some 0 ∧
      Chain self.index self.entries.length (hash key) slot := by
  obtain ⟨bits, size⟩ := sound.size
  obtain ⟨slot, free, chain⟩ := sound.exists_chain (hash key)
  refine ⟨slot, ?_, free, chain⟩
  obtain ⟨steps, stepsLt, rfl, taken⟩ := chain
  have passed : ∀ earlier < steps, ∃ other,
      self.index[spot self.index.length (hash key) (0 + earlier)]? = some (other + 1) ∧
        self.holdsKey key other = some false := by
    intro earlier before
    obtain ⟨other, _, stored⟩ := taken earlier before
    obtain ⟨otherEntry, otherRow, _⟩ := sound.held _ other stored
    refine ⟨other, by rwa [Nat.zero_add], ?_⟩
    have differ : key ≠ otherEntry.key := by
      rintro rfl
      exact absent (List.mem_map_of_mem (List.mem_of_getElem? otherRow))
    simp [holdsKey, otherRow, differ]
  have reached := seek_eq size (self.holdsKey key) (hash key) steps 0
    self.index.length stepsLt passed (.inl (by rwa [Nat.zero_add]))
  rw [Nat.zero_add] at reached
  simp [findSlotForInsert, sound.home_eq, reached]

theorem findSlot_present (rowOf : self.entries[row]? = some entry) :
    self.findSlot hash entry.key = some (some entry.slot) := by
  have occupied : self.index ≠ [] := List.ne_nil_of_length_pos sound.positive
  simp [findSlot, occupied, findSlotForInsert_present sound rowOf, sound.placed row entry rowOf]

theorem findSlot_absent {key : K} (absent : key ∉ self.entries.map SparseRow.key) :
    self.findSlot hash key = some none := by
  have occupied : self.index ≠ [] := List.ne_nil_of_length_pos sound.positive
  obtain ⟨slot, found, free, _⟩ := findSlotForInsert_absent sound absent
  simp [findSlot, occupied, found, free]

theorem getEntryId_present (rowOf : self.entries[row]? = some entry) :
    self.getEntryId hash entry.key = some (some row) := by
  simp [getEntryId, findSlot_present sound rowOf, rowAt, sound.placed row entry rowOf]

end Lookup

theorem Sound.weaken {floor' : Nat} (sound : Sound hash floor index entries) (le : floor ≤ floor')
    (low : floor' ≤ entries.length) : Sound hash floor' index entries := by
  refine { sound with low, chained := ?_ }
  intro row entry rowOf
  obtain ⟨steps, stepsLt, slotEq, taken⟩ := sound.chained row entry rowOf
  refine ⟨steps, stepsLt, slotEq, ?_⟩
  intro earlier before
  obtain ⟨other, otherLt, stored⟩ := taken earlier before
  exact ⟨other, by omega, stored⟩

/-! ## Filling and emptying slots -/

/-- A chain stays when the slots it passes over do. -/
theorem Chain.transfer {limit limit' home : Nat} {index' : List Nat}
    (chain : Chain index limit home slot) (size : index'.length = index.length)
    (keeps : ∀ slot row : Nat, index[slot]? = some (row + 1) → row < limit → ∃ row' < limit',
      index'[slot]? = some (row' + 1)) :
    Chain index' limit' home slot := by
  obtain ⟨steps, stepsLt, slotEq, taken⟩ := chain
  refine ⟨steps, by rwa [size], by rwa [size], ?_⟩
  intro earlier before
  obtain ⟨row, rowLt, stored⟩ := taken earlier before
  rw [size]
  exact keeps _ row stored rowLt

/-- A row that joins at the end of its chain. -/
theorem Sound.place (sound : Sound hash floor index entries)
    (spare : entries.length + 1 < index.length) (free : index[entry.slot]? = some 0)
    (chain : Chain index entries.length (hash entry.key) entry.slot)
    (absent : entry.key ∉ entries.map SparseRow.key) :
    Sound hash floor (index.set entry.slot (entries.length + 1)) (entries ++ [entry]) := by
  have slotLt := (List.getElem?_eq_some_iff.mp free).1
  have keeps : ∀ slot row : Nat, index[slot]? = some (row + 1) →
      (index.set entry.slot (entries.length + 1))[slot]? = some (row + 1) := by
    intro slot row stored
    have differ : entry.slot ≠ slot := by
      rintro rfl
      rw [free] at stored
      simp at stored
    rwa [List.getElem?_set_ne differ]
  refine ⟨?_, ?_, ?_, ?_, ?_, ?_, ?_⟩
  · rw [List.length_set]
    exact sound.size
  · simpa using spare
  · rw [List.length_append]
    exact Nat.le_add_right_of_le sound.low
  · intro row other rowOf
    rcases Nat.lt_or_ge row entries.length with older | newest
    · rw [List.getElem?_append_left older] at rowOf
      exact keeps _ _ (sound.placed row other rowOf)
    · rw [List.getElem?_append_right newest] at rowOf
      obtain ⟨rfl, rfl⟩ : row = entries.length ∧ entry = other := by
        have only := (List.getElem?_eq_some_iff.mp rowOf).1
        have zero : row - entries.length = 0 := by simpa using only
        rw [zero] at rowOf
        exact ⟨by omega, by simpa using rowOf⟩
      rw [List.getElem?_set_self slotLt]
  · intro slot row stored
    rcases eq_or_ne entry.slot slot with rfl | differ
    · rw [List.getElem?_set_self slotLt] at stored
      obtain rfl : entries.length = row := by simpa using stored
      exact ⟨entry, by simp, rfl⟩
    · rw [List.getElem?_set_ne differ] at stored
      obtain ⟨other, rowOf, slotOf⟩ := sound.held slot row stored
      have older := (List.getElem?_eq_some_iff.mp rowOf).1
      exact ⟨other, by rwa [List.getElem?_append_left older], slotOf⟩
  · intro row other rowOf
    rcases Nat.lt_or_ge row entries.length with older | newest
    · rw [List.getElem?_append_left older] at rowOf
      apply (sound.chained row other rowOf).transfer (by simp)
      intro slot passed stored passedLt
      exact ⟨passed, passedLt, keeps slot passed stored⟩
    · have bounded := (List.getElem?_eq_some_iff.mp rowOf).1
      obtain rfl : row = entries.length := by
        rw [List.length_append, List.length_singleton] at bounded
        omega
      obtain rfl : entry = other := by simpa using rowOf
      apply chain.transfer (by simp)
      intro slot passed stored passedLt
      exact ⟨passed, by omega, keeps slot passed stored⟩
  · rw [List.map_append, List.map_singleton]
    exact List.Nodup.append sound.distinct (List.nodup_singleton _)
      (List.disjoint_singleton.mpr absent)

theorem clearSlots_length (rows : List (SparseRow K V)) :
    ∀ index : List Nat, (clearSlots index rows).length = index.length := by
  induction rows with
  | nil => intro index; rfl
  | cons row rest inductionHypothesis =>
      intro index
      rw [clearSlots, List.foldl_cons, ← clearSlots, inductionHypothesis, List.length_set]

theorem getElem?_clearSlots (slot : Nat) (rows : List (SparseRow K V)) :
    ∀ index : List Nat, (clearSlots index rows)[slot]? =
      if slot ∈ rows.map SparseRow.slot then index[slot]?.map (fun _ => 0) else index[slot]? := by
  induction rows with
  | nil =>
      intro index
      simp [clearSlots]
  | cons row rest inductionHypothesis =>
      intro index
      rw [clearSlots, List.foldl_cons, ← clearSlots, inductionHypothesis]
      by_cases later : slot ∈ rest.map SparseRow.slot
      · rcases eq_or_ne row.slot slot with same | differ
        · simp only [later, List.map_cons, List.mem_cons, or_true, if_true, same,
            List.getElem?_set_self']
          cases index[slot]? <;> rfl
        · simp [later, List.getElem?_set_ne differ]
      · rcases eq_or_ne row.slot slot with same | differ
        · simp only [later, List.map_cons, List.mem_cons, same, true_or, if_true, if_false,
            List.getElem?_set_self']
          rfl
        · simp [later, List.getElem?_set_ne differ, differ.symm]

/-- What is left after the latest rows are dropped. -/
theorem Sound.take (sound : Sound hash floor index entries) {newLen : Nat}
    (kept : newLen ≤ entries.length) (recent : floor ≤ newLen ∨ newLen = 0) :
    Sound hash (min floor newLen) (clearSlots index (entries.drop newLen)) (entries.take newLen) := by
  have cleared : ∀ (row : Nat) (entry : SparseRow K V), entries[row]? = some entry →
      (entry.slot ∈ (entries.drop newLen).map SparseRow.slot ↔ newLen ≤ row) := by
    intro row entry rowOf
    constructor
    · intro dropped
      obtain ⟨other, otherMem, same⟩ := List.mem_map.mp dropped
      obtain ⟨place, otherRow⟩ := List.getElem?_of_mem otherMem
      rw [List.getElem?_drop] at otherRow
      have := sound.row_unique otherRow rowOf same
      omega
    · intro late
      apply List.mem_map_of_mem
      have place : (entries.drop newLen)[row - newLen]? = some entry := by
        rw [List.getElem?_drop, Nat.add_sub_cancel' late, rowOf]
      exact List.mem_of_getElem? place
  have keeps : ∀ slot row : Nat, index[slot]? = some (row + 1) → row < newLen →
      (clearSlots index (entries.drop newLen))[slot]? = some (row + 1) := by
    intro slot row stored early
    obtain ⟨entry, rowOf, rfl⟩ := sound.held slot row stored
    have notCleared := (cleared row entry rowOf).not.mpr (by omega)
    rw [getElem?_clearSlots, if_neg notCleared, stored]
  have rowsOf : ∀ (row : Nat) (entry : SparseRow K V), (entries.take newLen)[row]? = some entry →
      row < newLen ∧ entries[row]? = some entry := by
    intro row entry rowOf
    rw [List.getElem?_take] at rowOf
    split at rowOf
    · exact ⟨‹_›, rowOf⟩
    · cases rowOf
  refine ⟨?_, ?_, ?_, ?_, ?_, ?_, ?_⟩
  · rw [clearSlots_length]
    exact sound.size
  · rw [clearSlots_length, List.length_take]
    exact Nat.lt_of_le_of_lt (Nat.min_le_right _ _) sound.spare
  · rw [List.length_take]
    omega
  · intro row entry rowOf
    obtain ⟨early, rowOf⟩ := rowsOf row entry rowOf
    exact keeps _ _ (sound.placed row entry rowOf) early
  · intro slot row stored
    rw [getElem?_clearSlots] at stored
    split at stored
    · cases old : index[slot]? <;> simp [old] at stored
    · obtain ⟨entry, rowOf, rfl⟩ := sound.held slot row stored
      have early : row < newLen := by
        by_contra late
        exact ‹_ ∉ _› ((cleared row entry rowOf).mpr (by omega))
      exact ⟨entry, by rw [List.getElem?_take_of_lt early, rowOf], rfl⟩
  · intro row entry rowOf
    obtain ⟨early, rowOf⟩ := rowsOf row entry rowOf
    apply (sound.chained row entry rowOf).transfer (clearSlots_length _ _)
    intro slot passed stored passedLt
    exact ⟨passed, by omega, keeps slot passed stored (by omega)⟩
  · rw [List.map_take]
    exact sound.distinct.sublist (List.take_sublist _ _)

/-! ## Rebuilding a table -/

theorem Sound.replicate (bits : Nat) (hash : K → Nat) :
    Sound hash 0 (List.replicate (2 ^ bits) 0) ([] : List (SparseRow K V)) := by
  refine ⟨⟨bits, by simp⟩, ?_, by simp, by simp, ?_, by simp, by simp⟩
  · rw [List.length_replicate]
    exact Nat.two_pow_pos bits
  intro slot row stored
  rw [List.getElem?_replicate] at stored
  split at stored <;> simp at stored

/-- What an iterator over the rows yields. -/
def pairs (entries : List (SparseRow K V)) : List (K × V) :=
  entries.map fun entry => (entry.key, entry.value)

theorem keys_pairs (entries : List (SparseRow K V)) :
    (pairs entries).map Prod.fst = entries.map SparseRow.key := List.map_map

theorem reindex_sound : ∀ (rest : List (SparseRow K V)) (index : List Nat)
    (done : List (SparseRow K V)), Sound hash 0 index done →
      done.length + rest.length < index.length →
      ((done ++ rest).map SparseRow.key).Nodup →
      (∃ index' entries', reindex hash index done rest = some (index', entries') ∧
        Sound hash 0 index' entries' ∧ index'.length = index.length ∧
        pairs entries' = pairs (done ++ rest)) ∨
      reindex hash index done rest = none ∧ 2 ^ 32 < index.length := by
  intro rest
  induction rest with
  | nil =>
      intro index done sound _ _
      exact .inl ⟨index, done, rfl, sound, rfl, by rw [List.append_nil]⟩
  | cons entry rest inductionHypothesis =>
      intro index done sound enough distinct
      obtain ⟨slot, found, free, chain⟩ := sound.findEmptySlotIn_eq (hash entry.key)
      have slotLt := (List.getElem?_eq_some_iff.mp free).1
      rw [List.length_cons] at enough
      have absent : entry.key ∉ done.map SparseRow.key := by
        rw [List.map_append, List.nodup_append] at distinct
        intro there
        exact distinct.2.2 _ there _ (by simp) rfl
      rcases Nat.lt_or_ge slot (2 ^ 32) with small | large
      · have absent' : ({ entry with slot } : SparseRow K V).key ∉ done.map SparseRow.key := absent
        have placed := sound.place (by omega) free chain absent'
        have goes := inductionHypothesis _ _ placed
          (by simp only [List.length_append, List.length_set, List.length_singleton]; omega)
          (by simpa using distinct)
        rw [List.length_set] at goes
        simpa [reindex, found, castChecked_eq small, pairs] using goes
      · refine .inr ⟨?_, by omega⟩
        simp [reindex, found, castChecked_eq_none large]

end SparseHashMap

end EvmZig.State
