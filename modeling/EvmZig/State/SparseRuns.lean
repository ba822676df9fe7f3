import Mathlib.Data.List.Nodup
import Mathlib.Logic.Relation
import EvmZig.State.ClusterRepair

/-!
# Sparse hash maps as finite maps

A map stands for a list of pairs in the order of insertion.  Its rows are that
list up to a permutation of those it had at the last removal, so an entry id
names one key from then on, and a length recorded since then can be gone back
to.  Nothing here depends on how well the hash function spreads the keys.
-/

set_option autoImplicit false

namespace EvmZig.State

open Zig

namespace SparseHashMap

variable {K V : Type} {hash : K → Nat} {floor slots count row : Nat} {key : K}
  {entry : SparseRow K V} {rows left right : List (K × V)}

/-! ## Calls -/

inductive Call (K V : Type) where
  | put (key : K) (value : V) (allocator : Bool)
  | getOrPut (key : K) (value : V) (allocator : Bool)
  | remove (key : K)
  | fetchRemove (key : K)
  | removeIf (predicate : K → V → Bool)
  | clearRetainingCapacity
  | ensureTotalCapacity (expectedCount : Nat) (allocator : Bool)
  | ensureUnusedCapacity (additionalCount : Nat) (allocator : Bool)
  | truncate (newLen : Nat)

namespace Call

variable [DecidableEq K]

def run (hash : K → Nat) (map : SparseHashMap K V) :
    Call K V → Checked GrowError (SparseHashMap K V)
  | .put key value allocator => map.put hash key value allocator
  | .getOrPut key value allocator => do return (← map.getOrPut hash key value allocator).1
  | .remove key => do return (← Checked.ofOption (map.remove hash key)).1
  | .fetchRemove key => do return (← Checked.ofOption (map.fetchRemove hash key)).1
  | .removeIf predicate => .ofOption (map.removeIf hash predicate)
  | .clearRetainingCapacity => .ok map.clearRetainingCapacity
  | .ensureTotalCapacity expectedCount allocator =>
      map.ensureTotalCapacity hash expectedCount allocator
  | .ensureUnusedCapacity additionalCount allocator =>
      map.ensureUnusedCapacity hash additionalCount allocator
  | .truncate newLen => .ofOption (map.truncate newLen)

/-- The pairs a call leaves. -/
def leaves (rows : List (K × V)) : Call K V → List (K × V)
  | .put key value _ =>
      if key ∈ rows.map Prod.fst then rows.map fun row => if row.1 = key then (key, value) else row
      else rows ++ [(key, value)]
  | .getOrPut key value _ => if key ∈ rows.map Prod.fst then rows else rows ++ [(key, value)]
  | .remove key | .fetchRemove key => rows.filter fun row => row.1 ≠ key
  | .removeIf predicate => rows.filter fun row => !predicate row.1 row.2
  | .clearRetainingCapacity => []
  | .ensureTotalCapacity _ _ | .ensureUnusedCapacity _ _ => rows
  | .truncate newLen => rows.take newLen

/-- Whether a call removes a key. -/
def removes (rows : List (K × V)) : Call K V → Bool
  | .remove key | .fetchRemove key => decide (key ∈ rows.map Prod.fst)
  | .removeIf predicate => rows.any fun row => predicate row.1 row.2
  | _ => false

/-- The capacity a call may ask for. -/
def growth (map : SparseHashMap K V) : Call K V → Except GrowError Nat
  | .put _ _ _ | .getOrPut _ _ _ => growCapacity map.capacity (map.entries.length + 1)
  | .ensureTotalCapacity expectedCount _ => .ok expectedCount
  | .ensureUnusedCapacity additionalCount _ =>
      growCapacity map.capacity (map.entries.length + additionalCount)
  | _ => .ok 0

/-- The slots in use, and those a call may ask for, have numbers a row can keep. -/
def Fits (map : SparseHashMap K V) (call : Call K V) : Prop :=
  map.index.length ≤ 2 ^ 32 ∧ ∀ capacity slots, call.growth map = .ok capacity →
    slotCountForCapacity capacity = .ok slots → slots ≤ 2 ^ 32

end Call

/-! ## Capacity -/

theorem ceilPowerOfTwo_eq_some {value : Nat} (eq : ceilPowerOfTwo value = some slots) :
    value ≤ slots ∧ ∃ bits, slots = 2 ^ bits := by
  have le := List.find?_some eq
  have mem := List.mem_of_find?_eq_some eq
  obtain ⟨bits, _, power⟩ := List.mem_map.mp mem
  exact ⟨by simpa using le, bits, power.symm⟩

theorem slotsCanFit_iff : slotsCanFit slots count = true ↔
    count = 0 ∨ slots ≠ 0 ∧ count ≤ slots * 80 / 100 := by
  simp only [slotsCanFit, Bool.or_eq_true, Bool.and_eq_true, decide_eq_true_eq]
  rfl

theorem slotCountForCapacity_eq_ok {capacity : Nat} (positive : 0 < capacity)
    (eq : slotCountForCapacity capacity = .ok slots) :
    (∃ bits, slots = 2 ^ bits) ∧ slotsCanFit slots capacity = true := by
  have nonzero : capacity ≠ 0 := by omega
  simp only [slotCountForCapacity, nonzero, if_false] at eq
  split at eq
  · cases eq
  · rename_i numerator product
    obtain ⟨_, rfl⟩ := mulChecked_eq_some.mp product
    split at eq
    · cases eq
    · rename_i found power
      cases eq
      obtain ⟨le, bits, rfl⟩ := ceilPowerOfTwo_eq_some power
      refine ⟨⟨bits, rfl⟩, ?_⟩
      rw [loadPercentage] at le
      exact slotsCanFit_iff.mpr (.inr ⟨(Nat.two_pow_pos bits).ne', by omega⟩)

/-- A table within its load has a free slot. -/
theorem slotsCanFit_lt (positive : 0 < slots) (fits : slotsCanFit slots count = true) :
    count < slots := by
  have := slotsCanFit_iff.mp fits
  omega

theorem slotsCanFit_mono {larger : Nat} (le : count ≤ larger)
    (fits : slotsCanFit slots larger = true) : slotsCanFit slots count = true := by
  have := slotsCanFit_iff.mp fits
  exact slotsCanFit_iff.mpr (by omega)

theorem doubleCapacity_ge {needed grown : Nat} : ∀ (fuel capacity : Nat),
    doubleCapacity needed fuel capacity = .ok grown → needed ≤ grown := by
  intro fuel
  induction fuel with
  | zero => simp [doubleCapacity]
  | succ fuel inductionHypothesis =>
      intro capacity eq
      rw [doubleCapacity] at eq
      split at eq
      · split at eq
        · cases eq
        · exact inductionHypothesis _ eq
      · cases eq
        omega

/-! ## Tables of a map -/

/-- The table of a map that nothing has been put into, or a sound one with room for its capacity. -/
inductive Table (hash : K → Nat) (floor : Nat) (map : SparseHashMap K V) : Prop
  | empty (index : map.index = []) (entries : map.entries = []) (capacity : map.capacity = 0)
      (low : floor = 0)
  | filled (sound : Sound hash floor map.index map.entries)
      (length : map.entries.length ≤ map.capacity)
      (slots : slotsCanFit map.index.length map.capacity = true)

namespace Table

variable {map : SparseHashMap K V}

theorem low (table : Table hash floor map) : floor ≤ map.entries.length := by
  cases table with
  | empty index entries capacity low => omega
  | filled sound length slots => exact sound.low

theorem distinct (table : Table hash floor map) : ((pairs map.entries).map Prod.fst).Nodup := by
  rw [keys_pairs]
  cases table with
  | empty index entries capacity low => simp [entries]
  | filled sound length slots => exact sound.distinct

theorem fits (table : Table hash floor map) : slotsCanFit map.index.length map.capacity = true := by
  cases table with
  | empty index entries capacity low => simp [slotsCanFit, capacity]
  | filled sound length slots => exact slots

theorem length_le (table : Table hash floor map) : map.entries.length ≤ map.capacity := by
  cases table with
  | empty index entries capacity low => simp [entries]
  | filled sound length slots => exact length

theorem exists_row (there : key ∈ (pairs map.entries).map Prod.fst) :
    ∃ (row : Nat) (entry : SparseRow K V), map.entries[row]? = some entry ∧ entry.key = key := by
  rw [keys_pairs] at there
  obtain ⟨entry, entryMem, same⟩ := List.mem_map.mp there
  obtain ⟨row, rowOf⟩ := List.getElem?_of_mem entryMem
  exact ⟨row, entry, rowOf, same⟩

theorem rowAt (table : Table hash floor map) (rowOf : map.entries[row]? = some entry) :
    map.rowAt entry.slot = some row := by
  cases table with
  | empty index entries capacity low => simp [entries] at rowOf
  | filled sound length slots => simp [SparseHashMap.rowAt, sound.placed row entry rowOf]

section Reads

variable [DecidableEq K]

theorem getEntryId_present (table : Table hash floor map) (rowOf : map.entries[row]? = some entry) :
    map.getEntryId hash entry.key = some (some row) := by
  cases table with
  | empty index entries capacity low => simp [entries] at rowOf
  | filled sound length slots => exact SparseHashMap.getEntryId_present sound rowOf

theorem findSlot_present (table : Table hash floor map) (rowOf : map.entries[row]? = some entry) :
    map.findSlot hash entry.key = some (some entry.slot) := by
  cases table with
  | empty index entries capacity low => simp [entries] at rowOf
  | filled sound length slots => exact SparseHashMap.findSlot_present sound rowOf

theorem findSlot_absent (table : Table hash floor map)
    (absent : key ∉ (pairs map.entries).map Prod.fst) : map.findSlot hash key = some none := by
  rw [keys_pairs] at absent
  cases table with
  | empty index entries capacity low => simp [findSlot, index]
  | filled sound length slots => exact SparseHashMap.findSlot_absent sound absent

theorem getEntryId_absent (table : Table hash floor map)
    (absent : key ∉ (pairs map.entries).map Prod.fst) : map.getEntryId hash key = some none := by
  simp [getEntryId, table.findSlot_absent absent]

end Reads

/-! ### Growth -/

/-- The slots there are, or those that growth would allocate. -/
def Allotted (map : SparseHashMap K V) (neededCapacity slots : Nat) : Prop :=
  slots = map.index.length ∨ ∃ capacity, growCapacity map.capacity neededCapacity = .ok capacity ∧
    slotCountForCapacity capacity = .ok slots

theorem realloc (table : Table hash floor map) {expectedCount : Nat} (positive : 0 < expectedCount)
    (enough : map.entries.length ≤ expectedCount) (allocator : Bool) :
    (∃ after, map.realloc hash expectedCount allocator = .ok after ∧ Table hash floor after ∧
        pairs after.entries = pairs map.entries ∧ after.capacity = expectedCount ∧
        slotCountForCapacity expectedCount = .ok after.index.length) ∨
      (∃ error, map.realloc hash expectedCount allocator = .fail error) ∨
      map.realloc hash expectedCount allocator = .illegal ∧
        ∃ slots, slotCountForCapacity expectedCount = .ok slots ∧ 2 ^ 32 < slots := by
  rw [SparseHashMap.realloc]
  cases counted : slotCountForCapacity expectedCount with
  | error error => exact .inr (.inl ⟨error, rfl⟩)
  | ok slots =>
      cases allocator with
      | false => exact .inr (.inl ⟨.outOfMemory, rfl⟩)
      | true =>
          obtain ⟨⟨bits, rfl⟩, fits⟩ := slotCountForCapacity_eq_ok positive counted
          have spare := slotsCanFit_lt (Nat.two_pow_pos bits) fits
          have distinct := table.distinct
          rw [keys_pairs] at distinct
          have goes := reindex_sound map.entries _ [] (Sound.replicate bits hash)
            (by simp only [List.length_nil, List.length_replicate]; omega) distinct
          simp only [List.length_replicate, List.nil_append] at goes
          rcases goes with ⟨index, entries, rebuilt, sound, size, same⟩ | ⟨stops, large⟩
          · have sameLength : entries.length = map.entries.length := by
              simpa [pairs] using congrArg List.length same
            refine .inl ⟨{ index, entries, capacity := expectedCount }, ?_, ?_, same, rfl, by rw [size]⟩
            · simp [assert, enough, rebuilt, Checked.ofOption]
            · have low := table.low
              exact .filled (sound.weaken (Nat.zero_le _) (by omega))
                (by simpa [sameLength] using enough)
                (by simpa [size] using fits)
          · refine .inr (.inr ⟨?_, _, rfl, large⟩)
            simp [assert, enough, stops, Checked.ofOption]

theorem ensureUnusedCapacity (table : Table hash floor map) (additionalCount : Nat)
    (allocator : Bool) :
    (∃ after, map.ensureUnusedCapacity hash additionalCount allocator = .ok after ∧
        Table hash floor after ∧ pairs after.entries = pairs map.entries ∧
        map.entries.length + additionalCount ≤ after.capacity ∧
        (0 < additionalCount → after.index ≠ []) ∧
        Allotted map (map.entries.length + additionalCount) after.index.length) ∨
      (∃ error, map.ensureUnusedCapacity hash additionalCount allocator = .fail error) ∨
      map.ensureUnusedCapacity hash additionalCount allocator = .illegal ∧
        ∃ slots, Allotted map (map.entries.length + additionalCount) slots ∧ 2 ^ 32 < slots := by
  rw [SparseHashMap.ensureUnusedCapacity]
  cases sum : addChecked 32 map.entries.length additionalCount with
  | none => exact .inr (.inl ⟨.overflow, rfl⟩)
  | some needed =>
      obtain ⟨_, rfl⟩ := addChecked_eq_some.mp sum
      by_cases roomy : map.entries.length + additionalCount ≤ map.capacity ∧
          slotsCanFit map.index.length (map.entries.length + additionalCount) = true
      · refine .inl ⟨map, by simp [roomy], table, rfl, roomy.1, ?_, .inl rfl⟩
        intro positive empty
        have := slotsCanFit_iff.mp roomy.2
        rw [empty, List.length_nil] at this
        omega
      · simp only [if_neg roomy]
        cases grew : growCapacity map.capacity (map.entries.length + additionalCount) with
        | error error => exact .inr (.inl ⟨error, rfl⟩)
        | ok capacity =>
            have enough := doubleCapacity_ge _ _ grew
            have positive : 0 < capacity := by
              by_contra zero
              have none : map.entries.length + additionalCount = 0 := by omega
              exact roomy ⟨by omega, slotsCanFit_iff.mpr (.inl none)⟩
            rcases table.realloc positive (by omega) allocator with
              ⟨after, ran, tableAfter, same, rfl, counted⟩ | ⟨error, failed⟩ | ⟨stops, slots,
                counted, large⟩
            · refine .inl ⟨after, ran, tableAfter, same, enough, ?_, .inr ⟨_, grew, counted⟩⟩
              intro _ empty
              obtain ⟨⟨bits, size⟩, _⟩ := slotCountForCapacity_eq_ok positive counted
              rw [empty, List.length_nil] at size
              exact absurd size.symm (Nat.two_pow_pos bits).ne'
            · exact .inr (.inl ⟨error, failed⟩)
            · exact .inr (.inr ⟨stops, slots, .inr ⟨_, grew, counted⟩, large⟩)

variable [DecidableEq K]

/-! ### Writes -/

theorem setValue (table : Table hash floor map) (value : V) (rowOf : map.entries[row]? = some entry) :
    Table hash floor (map.setValue row value) ∧
      pairs (map.setValue row value).entries =
        (pairs map.entries).map fun pair => if pair.1 = entry.key then (entry.key, value) else pair := by
  have rowsOf : ∀ (other : Nat) (changed : SparseRow K V),
      (map.setValue row value).entries[other]? = some changed →
        ∃ old, map.entries[other]? = some old ∧ changed.key = old.key ∧ changed.slot = old.slot := by
    intro other changed changedOf
    simp only [SparseHashMap.setValue, List.getElem?_modify] at changedOf
    cases old : map.entries[other]? with
    | none => simp [old] at changedOf
    | some oldEntry =>
        rw [old] at changedOf
        refine ⟨oldEntry, rfl, ?_⟩
        split at changedOf <;> cases changedOf <;> exact ⟨rfl, rfl⟩
  have keys : (map.setValue row value).entries.map SparseRow.key = map.entries.map SparseRow.key := by
    apply List.ext_getElem?
    intro other
    simp only [SparseHashMap.setValue, List.getElem?_map, List.getElem?_modify]
    split <;> cases map.entries[other]? <;> rfl
  constructor
  · cases table with
    | empty index entries capacity low => simp [entries] at rowOf
    | filled sound length slots =>
        refine .filled ⟨sound.size, ?_, ?_, ?_, ?_, ?_, by rw [keys]; exact sound.distinct⟩ ?_ slots
        · simpa [SparseHashMap.setValue] using sound.spare
        · simpa [SparseHashMap.setValue] using sound.low
        · intro other changed changedOf
          obtain ⟨old, oldOf, _, sameSlot⟩ := rowsOf other changed changedOf
          rw [sameSlot]
          exact sound.placed other old oldOf
        · intro slot other stored
          obtain ⟨old, oldOf, rfl⟩ := sound.held slot other stored
          simp only [SparseHashMap.setValue, List.getElem?_modify, oldOf]
          split <;> exact ⟨_, rfl, rfl⟩
        · intro other changed changedOf
          obtain ⟨old, oldOf, sameKey, sameSlot⟩ := rowsOf other changed changedOf
          rw [sameKey, sameSlot]
          exact sound.chained other old oldOf
        · simpa [SparseHashMap.setValue] using length
  · apply List.ext_getElem?
    intro other
    simp only [SparseHashMap.setValue, pairs, List.getElem?_map, List.getElem?_modify]
    rcases eq_or_ne row other with rfl | differ
    · simp [rowOf]
    · cases otherOf : map.entries[other]? with
      | none => simp
      | some otherEntry =>
          have apart : otherEntry.key ≠ entry.key := by
            intro same
            have distinct := table.distinct
            rw [keys_pairs] at distinct
            have rowLt : row < (map.entries.map SparseRow.key).length := by
              simpa using (List.getElem?_eq_some_iff.mp rowOf).1
            apply differ
            apply (List.getElem?_inj rowLt distinct).mp
            simp [rowOf, otherOf, same]
          simp [differ, apart]

/-- A new key gets the next row. -/
theorem getOrPutAssumeCapacity (table : Table hash floor map)
    (absent : key ∉ (pairs map.entries).map Prod.fst) (value : V) (occupied : map.index ≠ [])
    (room : map.entries.length < map.capacity) :
    (∃ after, map.getOrPutAssumeCapacity hash key value =
          some (after, map.entries.length, false) ∧
        Table hash floor after ∧ pairs after.entries = pairs map.entries ++ [(key, value)] ∧
        after.setValue map.entries.length value = after) ∨
      map.getOrPutAssumeCapacity hash key value = none ∧ 2 ^ 32 < map.index.length := by
  rw [keys_pairs] at absent
  cases table with
  | empty index entries capacity low => exact absurd index occupied
  | filled sound length slots =>
      obtain ⟨slot, found, free, chain⟩ := findSlotForInsert_absent sound absent
      have slotLt := (List.getElem?_eq_some_iff.mp free).1
      rcases Nat.lt_or_ge slot (2 ^ 32) with small | large
      · have spare := slotsCanFit_lt sound.positive slots
        have absent' : ({ key, value, slot } : SparseRow K V).key ∉ map.entries.map SparseRow.key :=
          absent
        have placed := sound.place (by omega) free chain absent'
        refine .inl ⟨{ map with
            index := map.index.set slot (map.entries.length + 1)
            entries := map.entries ++ [{ key, value, slot }] }, ?_, ?_, ?_, ?_⟩
        · simp [SparseHashMap.getOrPutAssumeCapacity, assert, occupied, found, free, room,
            castChecked_eq small]
        · exact .filled placed (by simpa using Nat.succ_le_of_lt room) (by simpa using slots)
        · simp [pairs]
        · simp only [SparseHashMap.setValue]
          congr 1
          apply List.ext_getElem?
          intro row
          rw [List.getElem?_modify]
          split
          · subst row
            simp
          · simp
      · refine .inr ⟨?_, by omega⟩
        simp [SparseHashMap.getOrPutAssumeCapacity, assert, occupied, found, free, room,
          castChecked_eq_none large]

/-- Making room for a key that is not there, and putting it. -/
theorem insert (table : Table hash floor map) (absent : key ∉ (pairs map.entries).map Prod.fst)
    (value : V) (allocator : Bool) :
    (∃ grown after, map.ensureUnusedCapacity hash 1 allocator = .ok grown ∧
        grown.getOrPutAssumeCapacity hash key value = some (after, grown.entries.length, false) ∧
        Table hash floor after ∧ pairs after.entries = pairs map.entries ++ [(key, value)] ∧
        after.setValue grown.entries.length value = after) ∨
      (∃ error, map.ensureUnusedCapacity hash 1 allocator = .fail error) ∨
      (map.ensureUnusedCapacity hash 1 allocator = .illegal ∨
        ∃ grown, map.ensureUnusedCapacity hash 1 allocator = .ok grown ∧
          grown.getOrPutAssumeCapacity hash key value = none) ∧
        ∃ slots, Allotted map (map.entries.length + 1) slots ∧ 2 ^ 32 < slots := by
  rcases table.ensureUnusedCapacity 1 allocator with
    ⟨grown, ran, tableGrown, same, room, occupied, allotted⟩ | failed | ⟨stops, large⟩
  · have absent' : key ∉ (pairs grown.entries).map Prod.fst := by rwa [same]
    have sameLength : grown.entries.length = map.entries.length := by
      simpa [pairs] using congrArg List.length same
    rcases tableGrown.getOrPutAssumeCapacity absent' value (occupied Nat.one_pos) (by omega) with
      ⟨after, put, tableAfter, pairsAfter, self⟩ | ⟨stops, large⟩
    · exact .inl ⟨grown, after, ran, put, tableAfter, by rw [pairsAfter, same], self⟩
    · exact .inr (.inr ⟨.inr ⟨grown, ran, stops⟩, _, allotted, large⟩)
  · exact .inr (.inl failed)
  · exact .inr (.inr ⟨.inl stops, large⟩)

/-! ### Removals -/

theorem removeSlot (table : Table hash floor map) (rowOf : map.entries[row]? = some entry) :
    (∃ after, map.removeSlot hash entry.slot = some after ∧
        Table hash after.entries.length after ∧ after.index.length = map.index.length ∧
        after.entries.length + 1 = map.entries.length ∧
        (pairs after.entries).Perm ((pairs map.entries).eraseIdx row) ∧
        ∀ earlier < row, (pairs after.entries)[earlier]? = (pairs map.entries)[earlier]?) ∨
      map.removeSlot hash entry.slot = none ∧ 2 ^ 32 < map.index.length := by
  cases table with
  | empty index entries capacity low => simp [entries] at rowOf
  | filled sound length slots =>
      have rowLt := (List.getElem?_eq_some_iff.mp rowOf).1
      rcases sound.removeSlot rowOf with
        ⟨after, ran, soundAfter, size, sameCapacity, perm, before⟩ | stops
      · have lengthAfter : after.entries.length = map.entries.length - 1 := by
          have := perm.length_eq
          simpa [pairs, List.length_eraseIdx, rowLt] using this
        refine .inl ⟨after, ran, .filled (by rwa [lengthAfter]) (by omega) ?_,
          size, by omega, perm, before⟩
        rw [size, sameCapacity]
        exact slots
      · exact .inr stops

omit [DecidableEq K] in
/-- Dropping one row drops what a predicate takes out, where it takes out that row at least. -/
theorem filter_eraseIdx {pair : K × V} {keep : K × V → Bool} (rowOf : rows[row]? = some pair)
    (out : keep pair = false) : ((rows.eraseIdx row).filter keep).Perm (rows.filter keep) := by
  obtain ⟨rowLt, rfl⟩ := List.getElem?_eq_some_iff.mp rowOf
  have perm := (List.getElem_cons_eraseIdx_perm rowLt).filter keep
  rwa [List.filter_cons_of_neg (by simp [out])] at perm

theorem removeKey (table : Table hash floor map) (rowOf : map.entries[row]? = some entry) :
    (∃ after, map.removeSlot hash entry.slot = some after ∧
        Table hash after.entries.length after ∧
        (pairs after.entries).Perm ((pairs map.entries).filter fun pair => pair.1 ≠ entry.key)) ∨
      map.removeSlot hash entry.slot = none ∧ 2 ^ 32 < map.index.length := by
  rcases table.removeSlot rowOf with ⟨after, ran, tableAfter, _, _, perm, _⟩ | stops
  · refine .inl ⟨after, ran, tableAfter, ?_⟩
    have pairOf : (pairs map.entries)[row]? = some (entry.key, entry.value) := by simp [pairs, rowOf]
    obtain ⟨rowLt, rowIs⟩ := List.getElem?_eq_some_iff.mp pairOf
    have keys := ((List.getElem_cons_eraseIdx_perm rowLt).map Prod.fst).nodup_iff.mpr table.distinct
    rw [rowIs, List.map_cons, List.nodup_cons] at keys
    have others : ((pairs map.entries).eraseIdx row).filter (fun pair => pair.1 ≠ entry.key) =
        (pairs map.entries).eraseIdx row := by
      apply List.filter_eq_self.mpr
      intro pair pairMem
      have apart : pair.1 ≠ entry.key := by
        intro same
        exact keys.1 (List.mem_map.mpr ⟨pair, pairMem, same⟩)
      simpa using apart
    rw [← others] at perm
    exact perm.trans (filter_eraseIdx pairOf (by simp))
  · exact .inr stops

theorem removeFrom (predicate : K → V → Bool) : ∀ (fuel : Nat) (map : SparseHashMap K V)
    (floor row : Nat), Table hash floor map → row ≤ map.entries.length →
      map.entries.length < fuel + row →
      (∀ earlier < row, ∀ pair, (pairs map.entries)[earlier]? = some pair →
        predicate pair.1 pair.2 = false) →
      (∃ after, removeFrom hash predicate fuel map row = some after ∧
          (pairs after.entries).Perm
            ((pairs map.entries).filter fun pair => !predicate pair.1 pair.2) ∧
          if (pairs map.entries).any fun pair => predicate pair.1 pair.2 then
            Table hash after.entries.length after
          else after = map) ∨
        removeFrom hash predicate fuel map row = none ∧ 2 ^ 32 < map.index.length := by
  intro fuel
  induction fuel with
  | zero =>
      intro map floor row table bounded enough passed
      omega
  | succ fuel inductionHypothesis =>
      intro map floor row table bounded enough passed
      rcases Nat.lt_or_ge row map.entries.length with rowLt | atEnd
      · have rowOf : map.entries[row]? = some map.entries[row] := List.getElem?_eq_getElem rowLt
        have pairOf : (pairs map.entries)[row]? =
            some (map.entries[row].key, map.entries[row].value) := by simp [pairs, rowOf]
        cases chosen : predicate map.entries[row].key map.entries[row].value with
        | true =>
            have anyChosen : ((pairs map.entries).any fun pair => predicate pair.1 pair.2) = true :=
              List.any_eq_true.mpr ⟨_, List.mem_of_getElem? pairOf, chosen⟩
            rcases table.removeSlot rowOf with
              ⟨next, ran, tableNext, size, length, perm, before⟩ | ⟨stops, large⟩
            · have goes := inductionHypothesis next _ row tableNext (by omega) (by omega)
                (fun earlier early pair earlierOf =>
                  passed earlier early pair (by rw [← before earlier early, earlierOf]))
              rw [size] at goes
              have filtered := (perm.filter fun pair => !predicate pair.1 pair.2).trans
                (filter_eraseIdx pairOf (by simp [chosen]))
              rcases goes with ⟨after, goesOn, permAfter, tableAfter⟩ | ⟨stops, large⟩
              · refine .inl ⟨after, ?_, permAfter.trans filtered, ?_⟩
                · simp [SparseHashMap.removeFrom, rowLt, chosen, ran, goesOn]
                · rw [if_pos anyChosen]
                  split at tableAfter
                  · exact tableAfter
                  · rwa [tableAfter]
              · refine .inr ⟨?_, large⟩
                simp [SparseHashMap.removeFrom, rowLt, chosen, ran, stops]
            · refine .inr ⟨?_, large⟩
              simp [SparseHashMap.removeFrom, rowLt, chosen, stops]
        | false =>
            have goes := inductionHypothesis map floor (row + 1) table rowLt (by omega) (by
              intro earlier early pair earlierOf
              rcases Nat.lt_or_ge earlier row with older | same
              · exact passed earlier older pair earlierOf
              · obtain rfl : earlier = row := by omega
                rw [pairOf] at earlierOf
                cases earlierOf
                exact chosen)
            simpa [SparseHashMap.removeFrom, rowLt, rowOf, chosen] using goes
      · have kept : ∀ pair ∈ pairs map.entries, predicate pair.1 pair.2 = false := by
          intro pair pairMem
          obtain ⟨place, placeOf⟩ := List.getElem?_of_mem pairMem
          have placeLt := (List.getElem?_eq_some_iff.mp placeOf).1
          simp only [pairs, List.length_map] at placeLt
          exact passed place (by omega) pair placeOf
        refine .inl ⟨map, by simp [SparseHashMap.removeFrom, Nat.not_lt.mpr atEnd], ?_, ?_⟩
        · rw [List.filter_eq_self.mpr]
          intro pair pairMem
          simp [kept pair pairMem]
        · have none : ((pairs map.entries).any fun pair => predicate pair.1 pair.2) = false := by
            rw [List.any_eq_false]
            intro pair pairMem
            simp [kept pair pairMem]
          simp [none]

end Table

/-! ## What a call leaves -/

section Calls

variable [DecidableEq K] {map after : SparseHashMap K V}

/-- How far back rows may be out of order after a call that removes nothing. -/
def Call.floorAfter (before : Nat) : Call K V → Nat
  | .clearRetainingCapacity => 0
  | _ => before

inductive Settles (hash : K → Nat) (floor : Nat) (map : SparseHashMap K V) (call : Call K V)
    (after : SparseHashMap K V) : Prop
  | removed (removes : call.removes (pairs map.entries) = true)
      (same : (pairs after.entries).Perm (call.leaves (pairs map.entries)))
      (table : Table hash after.entries.length after)
  | kept (removes : call.removes (pairs map.entries) = false)
      (same : pairs after.entries = call.leaves (pairs map.entries))
      (table : Table hash (call.floorAfter floor) after)

/-- A call settles the rows, reports an error, or runs out of slot numbers. -/
def Outcome (hash : K → Nat) (floor : Nat) (map : SparseHashMap K V) (call : Call K V) : Prop :=
  (∃ after, call.run hash map = .ok after ∧ Settles hash floor map call after) ∨
    (∃ error, call.run hash map = .fail error) ∨
    call.run hash map = .illegal ∧ ¬ call.Fits map

omit [DecidableEq K] in
theorem not_fits_of_large {call : Call K V} (large : 2 ^ 32 < map.index.length) :
    ¬ call.Fits map :=
  fun fits => absurd fits.1 (by omega)

omit [DecidableEq K] in
theorem not_fits_of_allotted {call : Call K V} {needed : Nat}
    (grows : call.growth map = growCapacity map.capacity needed)
    (large : ∃ slots, Table.Allotted map needed slots ∧ 2 ^ 32 < slots) : ¬ call.Fits map := by
  rintro ⟨small, growthFits⟩
  obtain ⟨slots, rfl | ⟨capacity, grew, counted⟩, large⟩ := large
  · omega
  · have := growthFits capacity slots (by rw [grows, grew]) counted
    omega

theorem outcome_put (table : Table hash floor map) (key : K) (value : V) (allocator : Bool) :
    Outcome hash floor map (.put key value allocator) := by
  by_cases there : key ∈ (pairs map.entries).map Prod.fst
  · obtain ⟨row, entry, rowOf, rfl⟩ := Table.exists_row there
    obtain ⟨tableAfter, pairsAfter⟩ := table.setValue value rowOf
    refine .inl ⟨map.setValue row value, ?_, .kept rfl ?_ tableAfter⟩
    · simp [Call.run, put, table.getEntryId_present rowOf, Checked.ofOption]
    · rw [pairsAfter, Call.leaves, if_pos there]
  · rcases table.insert there value allocator with
      ⟨grown, after, ran, put, tableAfter, pairsAfter, self⟩ | ⟨error, failed⟩ | ⟨stops, large⟩
    · refine .inl ⟨after, ?_, .kept rfl ?_ tableAfter⟩
      · simp [Call.run, SparseHashMap.put, table.getEntryId_absent there, Checked.ofOption, ran, put,
          self, assert]
      · rw [pairsAfter, Call.leaves, if_neg there]
    · refine .inr (.inl ⟨error, ?_⟩)
      simp [Call.run, SparseHashMap.put, table.getEntryId_absent there, Checked.ofOption, failed]
    · refine .inr (.inr ⟨?_, not_fits_of_allotted rfl large⟩)
      rcases stops with stops | ⟨grown, ran, stops⟩
      · simp [Call.run, SparseHashMap.put, table.getEntryId_absent there, Checked.ofOption, stops]
      · simp [Call.run, SparseHashMap.put, table.getEntryId_absent there, Checked.ofOption, ran, stops]

theorem outcome_getOrPut (table : Table hash floor map) (key : K) (value : V) (allocator : Bool) :
    Outcome hash floor map (.getOrPut key value allocator) := by
  by_cases there : key ∈ (pairs map.entries).map Prod.fst
  · obtain ⟨row, entry, rowOf, rfl⟩ := Table.exists_row there
    refine .inl ⟨map, ?_, .kept rfl ?_ table⟩
    · simp [Call.run, getOrPut, table.getEntryId_present rowOf, Checked.ofOption]
    · rw [Call.leaves, if_pos there]
  · rcases table.insert there value allocator with
      ⟨grown, after, ran, put, tableAfter, pairsAfter, self⟩ | ⟨error, failed⟩ | ⟨stops, large⟩
    · refine .inl ⟨after, ?_, .kept rfl ?_ tableAfter⟩
      · simp [Call.run, getOrPut, table.getEntryId_absent there, Checked.ofOption, ran, put]
      · rw [pairsAfter, Call.leaves, if_neg there]
    · refine .inr (.inl ⟨error, ?_⟩)
      simp [Call.run, getOrPut, table.getEntryId_absent there, Checked.ofOption, failed]
    · refine .inr (.inr ⟨?_, not_fits_of_allotted rfl large⟩)
      rcases stops with stops | ⟨grown, ran, stops⟩
      · simp [Call.run, getOrPut, table.getEntryId_absent there, Checked.ofOption, stops]
      · simp [Call.run, getOrPut, table.getEntryId_absent there, Checked.ofOption, ran, stops]

theorem filter_absent (absent : key ∉ rows.map Prod.fst) :
    rows.filter (fun pair => decide (pair.1 ≠ key)) = rows := by
  apply List.filter_eq_self.mpr
  intro pair pairMem
  have apart : pair.1 ≠ key := by
    rintro rfl
    exact absent (List.mem_map_of_mem pairMem)
  simpa using apart

theorem outcome_remove (table : Table hash floor map) (key : K) :
    Outcome hash floor map (.remove key) := by
  by_cases there : key ∈ (pairs map.entries).map Prod.fst
  · obtain ⟨row, entry, rowOf, rfl⟩ := Table.exists_row there
    have removes : (Call.remove entry.key : Call K V).removes (pairs map.entries) = true := by
      simpa [Call.removes] using there
    rcases table.removeKey rowOf with ⟨after, ran, tableAfter, perm⟩ | ⟨stops, large⟩
    · refine .inl ⟨after, ?_, .removed removes perm tableAfter⟩
      simp [Call.run, remove, table.findSlot_present rowOf, Checked.ofOption, ran]
    · refine .inr (.inr ⟨?_, not_fits_of_large large⟩)
      simp [Call.run, remove, table.findSlot_present rowOf, Checked.ofOption, stops]
  · refine .inl ⟨map, ?_, .kept ?_ ?_ table⟩
    · simp [Call.run, remove, table.findSlot_absent there, Checked.ofOption]
    · simpa [Call.removes] using there
    · rw [Call.leaves, filter_absent there]

theorem outcome_fetchRemove (table : Table hash floor map) (key : K) :
    Outcome hash floor map (.fetchRemove key) := by
  by_cases there : key ∈ (pairs map.entries).map Prod.fst
  · obtain ⟨row, entry, rowOf, rfl⟩ := Table.exists_row there
    have removes : (Call.fetchRemove entry.key : Call K V).removes (pairs map.entries) = true := by
      simpa [Call.removes] using there
    have slotOf : map.rowAt entry.slot = some row := table.rowAt rowOf
    rcases table.removeKey rowOf with ⟨after, ran, tableAfter, perm⟩ | ⟨stops, large⟩
    · refine .inl ⟨after, ?_, .removed removes perm tableAfter⟩
      simp [Call.run, fetchRemove, table.findSlot_present rowOf, slotOf, rowOf, Checked.ofOption, ran]
    · refine .inr (.inr ⟨?_, not_fits_of_large large⟩)
      simp [Call.run, fetchRemove, table.findSlot_present rowOf, slotOf, Checked.ofOption, stops]
  · refine .inl ⟨map, ?_, .kept ?_ ?_ table⟩
    · simp [Call.run, fetchRemove, table.findSlot_absent there, Checked.ofOption]
    · simpa [Call.removes] using there
    · rw [Call.leaves, filter_absent there]

theorem outcome_removeIf (table : Table hash floor map) (predicate : K → V → Bool) :
    Outcome hash floor map (.removeIf predicate) := by
  rcases Table.removeFrom predicate (map.entries.length + 1) map floor 0 table (Nat.zero_le _)
    (by omega) (by simp) with ⟨after, ran, perm, tableAfter⟩ | ⟨stops, large⟩
  · have ran' : (Call.removeIf predicate : Call K V).run hash map = .ok after := by
      simp [Call.run, removeIf, ran, Checked.ofOption]
    refine .inl ⟨after, ran', ?_⟩
    split at tableAfter
    · rename_i chosen
      exact .removed chosen perm tableAfter
    · rename_i chosen
      subst after
      have none := eq_false_of_ne_true chosen
      refine .kept none ?_ table
      rw [Call.leaves, List.filter_eq_self.mpr]
      intro pair pairMem
      simpa using List.any_eq_false.mp none pair pairMem
  · refine .inr (.inr ⟨?_, not_fits_of_large large⟩)
    simp [Call.run, removeIf, stops, Checked.ofOption]

theorem outcome_ensureTotalCapacity (table : Table hash floor map) (expectedCount : Nat)
    (allocator : Bool) : Outcome hash floor map (.ensureTotalCapacity expectedCount allocator) := by
  by_cases roomy : expectedCount ≤ map.capacity ∧ slotsCanFit map.index.length expectedCount = true
  · exact .inl ⟨map, by simp [Call.run, ensureTotalCapacity, roomy], .kept rfl rfl table⟩
  · have ran : (Call.ensureTotalCapacity expectedCount allocator : Call K V).run hash map =
        map.realloc hash expectedCount allocator := if_neg roomy
    have exceeds : map.capacity < expectedCount := by
      by_contra under
      exact roomy ⟨by omega, slotsCanFit_mono (by omega) table.fits⟩
    have length := table.length_le
    rcases table.realloc (Nat.zero_lt_of_lt exceeds) (by omega) allocator with
      ⟨after, done, tableAfter, same, _⟩ | ⟨error, failed⟩ | ⟨stops, slots, counted, large⟩
    · exact .inl ⟨after, ran.trans done, .kept rfl same tableAfter⟩
    · exact .inr (.inl ⟨error, ran.trans failed⟩)
    · refine .inr (.inr ⟨ran.trans stops, ?_⟩)
      intro fits
      have := fits.2 expectedCount slots rfl counted
      omega

theorem outcome_ensureUnusedCapacity (table : Table hash floor map) (additionalCount : Nat)
    (allocator : Bool) :
    Outcome hash floor map (.ensureUnusedCapacity additionalCount allocator) := by
  rcases table.ensureUnusedCapacity additionalCount allocator with
    ⟨after, ran, tableAfter, same, _⟩ | ⟨error, failed⟩ | ⟨stops, large⟩
  · exact .inl ⟨after, ran, .kept rfl same tableAfter⟩
  · exact .inr (.inl ⟨error, failed⟩)
  · exact .inr (.inr ⟨stops, not_fits_of_allotted rfl large⟩)

theorem outcome_clearRetainingCapacity (table : Table hash floor map) :
    Outcome hash floor map .clearRetainingCapacity := by
  refine .inl ⟨map.clearRetainingCapacity, rfl, .kept rfl rfl ?_⟩
  cases table with
  | empty index entries capacity low =>
      exact .empty (by simp [clearRetainingCapacity, clearSlots, entries, index]) rfl capacity rfl
  | filled sound length slots =>
      have cleared := sound.take (Nat.zero_le _) (.inr rfl)
      rw [Nat.min_zero, List.drop_zero, List.take_zero] at cleared
      refine .filled cleared (Nat.zero_le _) ?_
      simpa [clearRetainingCapacity, clearSlots_length] using slots

theorem outcome_truncate (table : Table hash floor map) {newLen : Nat} (recent : floor ≤ newLen)
    (bounded : newLen ≤ map.entries.length) : Outcome hash floor map (.truncate newLen) := by
  refine .inl ⟨{ map with
      index := clearSlots map.index (map.entries.drop newLen)
      entries := map.entries.take newLen }, ?_, .kept rfl ?_ ?_⟩
  · simp [Call.run, truncate, assert, bounded, Checked.ofOption]
  · simp [pairs, Call.leaves, List.map_take]
  · cases table with
    | empty index entries capacity low =>
        exact .empty (by simp [clearSlots, entries, index]) (by simp [entries]) capacity low
    | filled sound length slots =>
        have kept := sound.take bounded (.inl recent)
        rw [Nat.min_eq_left recent] at kept
        refine .filled kept ?_ ?_
        · simp only [List.length_take]
          omega
        · simpa [clearSlots_length] using slots

end Calls

/-! ## Finite maps -/

/-- What a map stands for. -/
structure Ledger (K V : Type) where
  /-- The live pairs in the order of insertion. -/
  rows : List (K × V) := []
  /-- The lengths the map has had since the last removal. -/
  recorded : List Nat := [0]

section Runs

variable [DecidableEq K]

def Ledger.after (ledger : Ledger K V) (call : Call K V) : Ledger K V :=
  let rows := call.leaves ledger.rows
  { rows, recorded := if call.removes ledger.rows then [rows.length] else rows.length ::
    ledger.recorded }

def Ledger.lookup (ledger : Ledger K V) (key : K) : Option V :=
  (ledger.rows.find? fun row => row.1 = key).map Prod.snd

/-- A map is truncated to a length it has had since the last removal. -/
def Call.Permitted (ledger : Ledger K V) : Call K V → Prop
  | .truncate newLen => newLen ∈ ledger.recorded ∧ newLen ≤ ledger.rows.length
  | _ => True

/-- A call that neither removes a key nor drops the rows from an entry on. -/
def Call.Keeps (entryId : Nat) (ledger : Ledger K V) (call : Call K V) : Prop :=
  call.removes ledger.rows = false ∧
    match call with
    | .clearRetainingCapacity => False
    | .truncate newLen => entryId < newLen
    | _ => True

/-- A call that returned or reported an error, beside what it does to the finite map. -/
inductive Step (hash : K → Nat) (admits : Ledger K V → Call K V → Prop) :
    SparseHashMap K V × Ledger K V → SparseHashMap K V × Ledger K V → Prop
  | ran {map after : SparseHashMap K V} {ledger : Ledger K V} (call : Call K V)
      (permitted : call.Permitted ledger) (admitted : admits ledger call)
      (run : call.run hash map = .ok after) : Step hash admits (map, ledger) (after, ledger.after call)
  | failed {map : SparseHashMap K V} {ledger : Ledger K V} {error : GrowError} (call : Call K V)
      (permitted : call.Permitted ledger) (admitted : admits ledger call)
      (run : call.run hash map = .fail error) : Step hash admits (map, ledger) (map, ledger)

/-- Two lists that agree past a length, and up to order below it. -/
def Alike (floor : Nat) (left right : List (K × V)) : Prop :=
  ∃ older older' newer, older.length = floor ∧ older.Perm older' ∧
    left = older ++ newer ∧ right = older' ++ newer

/-- The map stands for the pairs of the ledger. -/
def Represents (hash : K → Nat) (map : SparseHashMap K V) (ledger : Ledger K V) : Prop :=
  ∃ floor, Table hash floor map ∧ Alike floor (pairs map.entries) ledger.rows ∧
    ∀ length ∈ ledger.recorded, floor ≤ length

namespace Alike

variable {floor : Nat} {left right : List (K × V)}

omit [DecidableEq K]

theorem perm (alike : Alike floor left right) : left.Perm right := by
  obtain ⟨older, older', newer, _, same, rfl, rfl⟩ := alike
  exact same.append_right newer

theorem of_perm (same : left.Perm right) : Alike left.length left right :=
  ⟨left, right, [], rfl, same, by simp, by simp⟩

theorem map (alike : Alike floor left right) (change : K × V → K × V) :
    Alike floor (left.map change) (right.map change) := by
  obtain ⟨older, older', newer, size, same, rfl, rfl⟩ := alike
  exact ⟨older.map change, older'.map change, newer.map change, by simpa using size,
    same.map change, by simp, by simp⟩

theorem append (alike : Alike floor left right) (pair : K × V) :
    Alike floor (left ++ [pair]) (right ++ [pair]) := by
  obtain ⟨older, older', newer, size, same, rfl, rfl⟩ := alike
  exact ⟨older, older', newer ++ [pair], size, same, by simp, by simp⟩

theorem take (alike : Alike floor left right) {length : Nat} (late : floor ≤ length) :
    Alike floor (left.take length) (right.take length) := by
  obtain ⟨older, older', newer, rfl, same, rfl, rfl⟩ := alike
  refine ⟨older, older', newer.take (length - older.length), rfl, same, ?_, ?_⟩
  · rw [List.take_append, List.take_of_length_le late]
  · rw [List.take_append, List.take_of_length_le (same.length_eq ▸ late), same.length_eq]

theorem mem_keys (alike : Alike floor left right) (key : K) :
    key ∈ left.map Prod.fst ↔ key ∈ right.map Prod.fst :=
  (alike.perm.map Prod.fst).mem_iff

end Alike

theorem Call.removes_congr (same : left.Perm right) (call : Call K V) :
    call.removes left = call.removes right := by
  have keys : ∀ key, key ∈ left.map Prod.fst ↔ key ∈ right.map Prod.fst :=
    fun key => (same.map Prod.fst).mem_iff
  cases call <;> simp only [Call.removes, keys]
  case removeIf predicate => exact same.any_eq

/-- A call that removes nothing keeps the order of what stands past the floor. -/
theorem Alike.leaves {floor : Nat} (alike : Alike floor left right) {call : Call K V}
    (removes : call.removes left = false)
    (recent : ∀ newLen, call = .truncate newLen → floor ≤ newLen) :
    Alike (call.floorAfter floor) (call.leaves left) (call.leaves right) := by
  have filtered : ∀ {keep : K × V → Bool}, (∀ pair ∈ left, keep pair = true) →
      Alike floor (left.filter keep) (right.filter keep) := by
    intro keep kept
    rw [List.filter_eq_self.mpr kept,
      List.filter_eq_self.mpr fun pair pairMem => kept pair (alike.perm.mem_iff.mpr pairMem)]
    exact alike
  cases call with
  | put key value allocator =>
      simp only [Call.leaves, alike.mem_keys key]
      split
      · exact alike.map _
      · exact alike.append _
  | getOrPut key value allocator =>
      simp only [Call.leaves, alike.mem_keys key]
      split
      · exact alike
      · exact alike.append _
  | remove key =>
      apply filtered
      intro pair pairMem
      have absent : key ∉ left.map Prod.fst := by simpa [Call.removes] using removes
      have apart : pair.1 ≠ key := by
        rintro rfl
        exact absent (List.mem_map_of_mem pairMem)
      simpa using apart
  | fetchRemove key =>
      apply filtered
      intro pair pairMem
      have absent : key ∉ left.map Prod.fst := by simpa [Call.removes] using removes
      have apart : pair.1 ≠ key := by
        rintro rfl
        exact absent (List.mem_map_of_mem pairMem)
      simpa using apart
  | removeIf predicate =>
      apply filtered
      intro pair pairMem
      simpa using List.any_eq_false.mp removes pair pairMem
  | clearRetainingCapacity => exact ⟨[], [], [], rfl, .nil, rfl, rfl⟩
  | ensureTotalCapacity expectedCount allocator => exact alike
  | ensureUnusedCapacity additionalCount allocator => exact alike
  | truncate newLen => exact alike.take (recent newLen rfl)

end Runs

/-! ## Runs -/

section Refinement

variable [DecidableEq K] {map : SparseHashMap K V} {ledger : Ledger K V}

theorem Call.leaves_perm (same : left.Perm right) {call : Call K V}
    (removes : call.removes left = true) : (call.leaves left).Perm (call.leaves right) := by
  cases call with
  | remove key => exact same.filter _
  | fetchRemove key => exact same.filter _
  | removeIf predicate => exact same.filter _
  | put => cases removes
  | getOrPut => cases removes
  | clearRetainingCapacity => cases removes
  | ensureTotalCapacity => cases removes
  | ensureUnusedCapacity => cases removes
  | truncate => cases removes

omit [DecidableEq K] in
theorem Represents.initial (hash : K → Nat) :
    Represents hash ({} : SparseHashMap K V) ({} : Ledger K V) :=
  ⟨0, .empty rfl rfl rfl rfl, ⟨[], [], [], rfl, .nil, rfl, rfl⟩, by simp⟩

theorem outcome (represents : Represents hash map ledger) {call : Call K V}
    (permitted : call.Permitted ledger) :
    ∃ floor, Alike floor (pairs map.entries) ledger.rows ∧
      (∀ length ∈ ledger.recorded, floor ≤ length) ∧
      (∀ newLen, call = .truncate newLen → floor ≤ newLen) ∧ Outcome hash floor map call := by
  obtain ⟨floor, table, alike, recorded⟩ := represents
  refine ⟨floor, alike, recorded, ?_, ?_⟩
  · rintro newLen rfl
    exact recorded newLen permitted.1
  · cases call with
    | put key value allocator => exact outcome_put table key value allocator
    | getOrPut key value allocator => exact outcome_getOrPut table key value allocator
    | remove key => exact outcome_remove table key
    | fetchRemove key => exact outcome_fetchRemove table key
    | removeIf predicate => exact outcome_removeIf table predicate
    | clearRetainingCapacity => exact outcome_clearRetainingCapacity table
    | ensureTotalCapacity expectedCount allocator =>
        exact outcome_ensureTotalCapacity table expectedCount allocator
    | ensureUnusedCapacity additionalCount allocator =>
        exact outcome_ensureUnusedCapacity table additionalCount allocator
    | truncate newLen =>
        apply outcome_truncate table (recorded newLen permitted.1)
        have length := alike.perm.length_eq
        rw [pairs, List.length_map] at length
        rw [length]
        exact permitted.2

/-- A call that returns does to the rows what it does to the finite map. -/
theorem Represents.after (represents : Represents hash map ledger) {call : Call K V}
    (permitted : call.Permitted ledger) {after : SparseHashMap K V}
    (run : call.run hash map = .ok after) :
    Represents hash after (ledger.after call) ∧
      (call.removes ledger.rows = false → pairs after.entries = call.leaves (pairs map.entries)) := by
  obtain ⟨floor, alike, recorded, recent, outcome⟩ := outcome represents permitted
  have settles : Settles hash floor map call after := by
    rcases outcome with ⟨after', ran, settles⟩ | ⟨error, failed⟩ | ⟨stops, _⟩
    · rw [run] at ran
      cases ran
      exact settles
    · rw [run] at failed
      cases failed
    · rw [run] at stops
      cases stops
  have sameRemoves := call.removes_congr alike.perm
  cases settles with
  | removed removes same table =>
      have perm := same.trans (Call.leaves_perm alike.perm removes)
      have length : (pairs after.entries).length = after.entries.length := by simp [pairs]
      rw [removes] at sameRemoves
      constructor
      · refine ⟨after.entries.length, table, length ▸ Alike.of_perm perm, ?_⟩
        intro recordedLength isRecorded
        rw [Ledger.after, ← sameRemoves, if_pos rfl, List.mem_singleton] at isRecorded
        rw [isRecorded, ← length, perm.length_eq]
      · intro keeps
        rw [keeps] at sameRemoves
        cases sameRemoves
  | kept removes same table =>
      have alikeAfter := alike.leaves removes recent
      rw [← same] at alikeAfter
      rw [removes] at sameRemoves
      refine ⟨⟨call.floorAfter floor, table, alikeAfter, ?_⟩, fun _ => same⟩
      intro recordedLength isRecorded
      rw [Ledger.after, ← sameRemoves, if_neg (by simp), List.mem_cons] at isRecorded
      rcases isRecorded with rfl | older
      · have length := alikeAfter.perm.length_eq
        have low := table.low
        rw [pairs, List.length_map] at length
        omega
      · have lower : call.floorAfter floor ≤ floor := by
          cases call <;> simp [Call.floorAfter]
        exact Nat.le_trans lower (recorded recordedLength older)

theorem Represents.run {admits : Ledger K V → Call K V → Prop} {map' : SparseHashMap K V}
    {ledger' : Ledger K V} (represents : Represents hash map ledger)
    (run : Relation.ReflTransGen (Step hash admits) (map, ledger) (map', ledger')) :
    Represents hash map' ledger' := by
  generalize start : (map, ledger) = before at run
  generalize goal : (map', ledger') = last at run
  induction run generalizing map' ledger' with
  | refl =>
      cases start
      cases goal
      exact represents
  | tail earlier step inductionHypothesis =>
      cases goal
      cases step with
      | ran call permitted admitted run => exact ((inductionHypothesis rfl).after permitted run).1
      | failed call permitted admitted run => exact inductionHypothesis rfl

/-! ### Reading a map -/

theorem Ledger.lookup_of_mem (distinct : (ledger.rows.map Prod.fst).Nodup) {value : V}
    (there : (key, value) ∈ ledger.rows) : ledger.lookup key = some value := by
  cases found : ledger.rows.find? fun row => row.1 = key with
  | none => simpa using List.find?_eq_none.mp found _ there
  | some row =>
      have sameKey : row.1 = key := by simpa using List.find?_some found
      have same := List.inj_on_of_nodup_map distinct (List.mem_of_find?_eq_some found) there sameKey
      simp [Ledger.lookup, found, same]

theorem Represents.get (represents : Represents hash map ledger) (key : K) :
    map.get hash key = some (ledger.lookup key) := by
  obtain ⟨floor, table, alike, _⟩ := represents
  by_cases there : key ∈ (pairs map.entries).map Prod.fst
  · obtain ⟨row, entry, rowOf, rfl⟩ := Table.exists_row there
    have pairMem : (entry.key, entry.value) ∈ pairs map.entries :=
      List.mem_map_of_mem (List.mem_of_getElem? rowOf)
    have distinct := ((alike.perm.map Prod.fst).nodup_iff).mp table.distinct
    rw [Ledger.lookup_of_mem distinct (alike.perm.mem_iff.mp pairMem)]
    simp [SparseHashMap.get, table.getEntryId_present rowOf, rowOf]
  · have none : ledger.lookup key = none := by
      rw [Ledger.lookup, List.find?_eq_none.mpr, Option.map_none]
      intro pair pairMem same
      apply there
      rw [alike.mem_keys]
      exact List.mem_map.mpr ⟨pair, pairMem, by simpa using same⟩
    simp [SparseHashMap.get, table.getEntryId_absent there, none]

omit [DecidableEq K] in
theorem keyById_eq (map : SparseHashMap K V) (entryId : Nat) :
    map.keyById entryId = (pairs map.entries)[entryId]?.map Prod.fst := by
  rw [pairs, List.getElem?_map, Option.map_map]
  rfl

/-- Calls that remove nothing keep the key of a row. -/
theorem Call.leaves_keeps {entryId : Nat} {call : Call K V} (keeps : call.Keeps entryId ledger)
    (removes : call.removes rows = false) (known : rows[entryId]?.map Prod.fst = some key) :
    (call.leaves rows)[entryId]?.map Prod.fst = some key := by
  obtain ⟨pair, pairOf, rfl⟩ := Option.map_eq_some_iff.mp known
  have inside := (List.getElem?_eq_some_iff.mp pairOf).1
  have appended : ∀ more, (rows ++ [more])[entryId]?.map Prod.fst = some pair.1 := by
    intro more
    rw [List.getElem?_append_left inside, pairOf]
    rfl
  cases call with
  | put key value allocator =>
      simp only [Call.leaves]
      split
      · rw [List.getElem?_map, pairOf]
        by_cases same : pair.1 = key
        · simp [same]
        · simp [same]
      · exact appended _
  | getOrPut key value allocator =>
      simp only [Call.leaves]
      split
      · exact known
      · exact appended _
  | remove key =>
      rwa [Call.leaves, filter_absent (by simpa [Call.removes] using removes)]
  | fetchRemove key =>
      rwa [Call.leaves, filter_absent (by simpa [Call.removes] using removes)]
  | removeIf predicate =>
      rw [Call.leaves, List.filter_eq_self.mpr, known]
      intro pair pairMem
      simpa using List.any_eq_false.mp removes pair pairMem
  | clearRetainingCapacity => exact keeps.2.elim
  | ensureTotalCapacity expectedCount allocator => exact known
  | ensureUnusedCapacity additionalCount allocator => exact known
  | truncate newLen => rwa [Call.leaves, List.getElem?_take_of_lt keeps.2]

theorem Represents.keeps {map' : SparseHashMap K V} {ledger' : Ledger K V} {entryId : Nat}
    (represents : Represents hash map ledger) (known : map.keyById entryId = some key)
    (run : Relation.ReflTransGen (Step hash (Call.Keeps entryId)) (map, ledger) (map', ledger')) :
    map'.keyById entryId = some key := by
  generalize start : (map, ledger) = before at run
  generalize goal : (map', ledger') = last at run
  induction run generalizing map' ledger' with
  | refl =>
      cases start
      cases goal
      exact known
  | tail earlier step inductionHypothesis =>
      cases start
      cases goal
      cases step with
      | failed call permitted admitted run => exact inductionHypothesis rfl
      | ran call permitted admitted run =>
          have held := inductionHypothesis rfl
          have represented := represents.run earlier
          have ⟨_, _, alike, _⟩ := represented
          have removes := (call.removes_congr alike.perm).trans admitted.1
          rw [keyById_eq, (represented.after permitted run).2 admitted.1]
          rw [keyById_eq] at held
          exact Call.leaves_keeps admitted removes held

end Refinement

end SparseHashMap

end EvmZig.State
