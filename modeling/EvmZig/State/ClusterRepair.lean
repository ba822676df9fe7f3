import Mathlib.Data.List.Perm.Basic
import EvmZig.State.Probing

/-!
# Repairing a cluster after a removal

The slots are counted from past the first free slot behind the hole, so that no
row is reached over the cut: homes stand before their rows.  The repair moves a
cursor from the hole up to the cut.  Rows behind the cursor are reached over
taken slots again; rows at or past it may still miss slots between the hole and
the cursor.
-/

set_option autoImplicit false

namespace EvmZig.State

open Zig

namespace SparseHashMap

variable {K V : Type} {index : List Nat} {entries : List (SparseRow K V)} {hash : K → Nat}
  {floor removed base hole cursor slot target row : Nat} {entry : SparseRow K V}

/-- The slot holds some row. -/
def Taken (index : List Nat) (slot : Nat) : Prop := ∃ row, index[slot]? = some (row + 1)

theorem taken_or_free (bounded : slot < index.length) :
    Taken index slot ∨ index[slot]? = some 0 := by
  have stored : index[slot]? = some index[slot] := List.getElem?_eq_getElem bounded
  cases value : index[slot] with
  | zero => exact .inr (by rw [stored, value])
  | succ row => exact .inl ⟨row, by rw [stored, value]⟩

theorem Taken.not_free (taken : Taken index slot) : index[slot]? ≠ some 0 := by
  obtain ⟨row, stored⟩ := taken
  simp [stored]

structure Mending (hash : K → Nat) (entries : List (SparseRow K V))
    (removed base hole cursor : Nat) (index : List Nat) : Prop where
  size : ∃ bits, index.length = 2 ^ bits
  behind : hole < cursor
  bounded : cursor < index.length
  cut : index[spot index.length base (index.length - 1)]? = some 0
  ahead : ∀ place, cursor ≤ place → place < index.length - 1 →
    Taken index (spot index.length base place)
  placed : ∀ (row : Nat) (entry : SparseRow K V), entries[row]? = some entry → row ≠ removed →
    index[entry.slot]? = some (row + 1)
  held : ∀ slot row : Nat, index[slot]? = some (row + 1) →
    row ≠ removed ∧ ∃ entry, entries[row]? = some entry ∧ entry.slot = slot
  chained : ∀ (row : Nat) (entry : SparseRow K V), entries[row]? = some entry → row ≠ removed →
    ∀ home place, home < index.length → place < index.length →
      spot index.length base home = hash entry.key % index.length →
      spot index.length base place = entry.slot →
      home ≤ place ∧ ∀ between, home ≤ between → between < place →
        Taken index (spot index.length base between) ∨
          cursor ≤ place ∧ hole ≤ between ∧ between < cursor

/-! ## The hole -/

theorem Sound.mending (sound : Sound hash floor index entries)
    (stored : index[slot]? = some (removed + 1)) :
    ∃ base hole, Mending hash entries removed base hole (hole + 1) (index.set slot 0) ∧
      nextSlot slot index.length = spot index.length base (hole + 1) := by
  obtain ⟨bits, size⟩ := sound.size
  have slotLt := (List.getElem?_eq_some_iff.mp stored).1
  have slotMod : slot % index.length = slot := Nat.mod_eq_of_lt slotLt
  obtain ⟨free, isFree, steps, stepsLt, freeEq, taken⟩ := sound.exists_chain slot
  have moved : 0 < steps := by
    rcases Nat.eq_zero_or_pos steps with rfl | positive
    · rw [freeEq, spot, Nat.add_zero, slotMod, stored] at isFree
      simp at isFree
    · exact positive
  have atHole : spot index.length (slot + steps + 1) (index.length - steps - 1) = slot := by
    have sum : slot + steps + 1 + (index.length - steps - 1) = slot + index.length := by omega
    rw [spot, sum, Nat.add_mod_right, slotMod]
  have atCut : spot index.length (slot + steps + 1) (index.length - 1) = free := by
    have sum : slot + steps + 1 + (index.length - 1) = slot + steps + index.length := by omega
    rw [freeEq, spot, sum, Nat.add_mod_right, spot]
  -- Away from the hole nothing has changed.
  have elsewhere : ∀ place, place < index.length → place ≠ index.length - steps - 1 →
      (index.set slot 0)[spot index.length (slot + steps + 1) place]? =
        index[spot index.length (slot + steps + 1) place]? := by
    intro place placeLt differ
    apply List.getElem?_set_ne
    intro same
    exact differ (spot_injective placeLt (by omega) (same.symm.trans atHole.symm))
  have holeSucc : index.length - steps - 1 + 1 = index.length - steps := by omega
  refine ⟨slot + steps + 1, index.length - steps - 1, ⟨?_, ?_, ?_, ?_, ?_, ?_, ?_, ?_⟩, ?_⟩
  · rw [List.length_set]
    exact ⟨bits, size⟩
  · exact Nat.lt_succ_self _
  · rw [List.length_set]
    omega
  · rw [List.length_set, elsewhere _ (by omega) (by omega), atCut, isFree]
  · intro place late early
    rw [List.length_set] at early ⊢
    obtain ⟨row, _, rowOf⟩ := taken (place + steps + 1 - index.length) (by omega)
    refine ⟨row, ?_⟩
    rw [elsewhere place (by omega) (by omega)]
    have sum : slot + steps + 1 + place =
        slot + (place + steps + 1 - index.length) + index.length := by omega
    rw [spot, sum, Nat.add_mod_right]
    exact rowOf
  · intro row entry rowOf differ
    have old := sound.placed row entry rowOf
    rw [List.getElem?_set_ne, old]
    rintro rfl
    rw [stored] at old
    simp only [Option.some.injEq, Nat.add_right_cancel_iff] at old
    exact differ old.symm
  · intro other row rowOf
    have differ : slot ≠ other := by
      rintro rfl
      rw [List.getElem?_set_self slotLt] at rowOf
      simp at rowOf
    rw [List.getElem?_set_ne differ] at rowOf
    refine ⟨?_, sound.held other row rowOf⟩
    rintro rfl
    obtain ⟨entry, entryOf, rfl⟩ := sound.held _ _ stored
    obtain ⟨entry', entryOf', rfl⟩ := sound.held _ _ rowOf
    rw [entryOf] at entryOf'
    cases entryOf'
    exact differ rfl
  · intro row entry rowOf differ home place homeLt placeLt homeEq placeEq
    rw [List.length_set] at homeLt placeLt homeEq placeEq ⊢
    obtain ⟨count, countLt, slotEq, passed⟩ := sound.chained row entry rowOf
    have along : ∀ more, spot index.length (hash entry.key) more =
        spot index.length (slot + steps + 1) (home + more) := by
      intro more
      rw [← spot_home, ← homeEq, spot_spot]
    -- The chain does not reach the cut.
    have inside : home + count < index.length := by
      by_contra beyond
      obtain ⟨other, _, otherOf⟩ := passed (index.length - 1 - home) (by omega)
      rw [along, show home + (index.length - 1 - home) = index.length - 1 by omega, atCut,
        isFree] at otherOf
      simp at otherOf
    have placeIs : place = home + count := by
      apply spot_injective placeLt inside
      rw [placeEq, slotEq, along]
    refine ⟨by omega, ?_⟩
    intro between late early
    obtain ⟨other, _, otherOf⟩ := passed (between - home) (by omega)
    rw [along, show home + (between - home) = between by omega] at otherOf
    rcases eq_or_ne between (index.length - steps - 1) with atIt | away
    · exact .inr (by omega)
    · exact .inl ⟨other, by rw [elsewhere between (by omega) away, otherOf]⟩
  · have next := nextSlot_eq size slot
    rw [slotMod] at next
    have sum : slot + steps + 1 + (index.length - steps - 1 + 1) = slot + 1 + index.length := by
      omega
    rw [next, spot, sum, Nat.add_mod_right]

/-! ## One round -/

/-- The table with one row moved from a slot to another. -/
theorem getElem?_moved {source : Nat} (sourceLt : source < index.length)
    (targetLt : target < index.length) : ((index.set source 0).set target (row + 1))[slot]? =
      if slot = target then some (row + 1) else if slot = source then some 0 else index[slot]? := by
  rcases eq_or_ne target slot with rfl | differ
  · rw [List.getElem?_set_self (by rwa [List.length_set]), if_pos rfl]
  · rw [List.getElem?_set_ne differ, if_neg differ.symm]
    rcases eq_or_ne source slot with rfl | differ'
    · rw [List.getElem?_set_self sourceLt, if_pos rfl]
    · rw [List.getElem?_set_ne differ', if_neg differ'.symm]

/-- The row behind a place moves to the first free slot from its home on. -/
theorem Mending.exists_target (mending : Mending hash entries removed base hole cursor index)
    (rowOf : entries[row]? = some entry)
    (stored : index[spot index.length base cursor]? = some (row + 1)) :
    ∃ home target, home < index.length ∧
      spot index.length base home = hash entry.key % index.length ∧
      home ≤ target ∧ target ≤ cursor ∧ (target ≠ cursor → hole ≤ target) ∧
      (index.set (spot index.length base cursor) 0)[spot index.length base target]? = some 0 ∧
      ∀ between, home ≤ between → between < target → Taken index (spot index.length base between) := by
  have cursorLt := mending.bounded
  have positive : 0 < index.length := by omega
  obtain ⟨home, homeLt, homeEq⟩ := exists_spot base (Nat.mod_lt (hash entry.key) positive)
  obtain ⟨differ, entry', rowOf', slotEq⟩ := mending.held _ _ stored
  rw [rowOf] at rowOf'
  cases rowOf'
  obtain ⟨le, between⟩ := mending.chained row entry rowOf differ home cursor homeLt cursorLt homeEq
    slotEq.symm
  have freed : (index.set (spot index.length base cursor) 0)[spot index.length base cursor]? = some 0 :=
    List.getElem?_set_self (spot_lt positive base cursor)
  have elsewhere : ∀ place, place < cursor →
      (index.set (spot index.length base cursor) 0)[spot index.length base place]? =
        index[spot index.length base place]? := by
    intro place before
    apply List.getElem?_set_ne
    intro same
    have := spot_injective cursorLt (by omega) same
    omega
  have atCursor : (index.set (spot index.length base cursor) 0)[
      spot index.length base (home + (cursor - home))]? = some 0 := by
    rw [Nat.add_sub_cancel' le, freed]
  have someFree : ∃ steps, (index.set (spot index.length base cursor) 0)[
      spot index.length base (home + steps)]? = some 0 := ⟨cursor - home, atCursor⟩
  classical
  have isFree := Nat.find_spec someFree
  have first : home + Nat.find someFree ≤ cursor := by
    have := Nat.find_min' someFree atCursor
    omega
  have passed : ∀ place, home ≤ place → place < home + Nat.find someFree →
      Taken index (spot index.length base place) := by
    intro place late early
    have before : place - home < Nat.find someFree := by omega
    have notFree := Nat.find_min someFree before
    rw [Nat.add_sub_cancel' late, elsewhere place (by omega)] at notFree
    rcases taken_or_free (spot_lt positive base place) with taken | free
    · exact taken
    · exact absurd free notFree
  refine ⟨home, home + Nat.find someFree, homeLt, homeEq, by omega, first, ?_, isFree, passed⟩
  intro short
  rcases between (home + Nat.find someFree) (by omega) (by omega) with taken | gap
  · rw [elsewhere _ (by omega)] at isFree
    exact absurd isFree taken.not_free
  · exact gap.2.1

/-- A round leaves the table mended one place further. -/
theorem Mending.step (mending : Mending hash entries removed base hole cursor index)
    (early : cursor < index.length - 1) (rowOf : entries[row]? = some entry)
    (stored : index[spot index.length base cursor]? = some (row + 1)) {home : Nat}
    (homeLt : home < index.length)
    (homeEq : spot index.length base home = hash entry.key % index.length)
    (fromHome : home ≤ target) (upToCursor : target ≤ cursor)
    (filled : target ≠ cursor → hole ≤ target)
    (free : (index.set (spot index.length base cursor) 0)[spot index.length base target]? = some 0)
    (passed : ∀ between, home ≤ between → between < target →
      Taken index (spot index.length base between)) :
    Mending hash
      (entries.modify row fun entry => { entry with slot := spot index.length base target })
      removed base hole (cursor + 1)
      ((index.set (spot index.length base cursor) 0).set (spot index.length base target) (row + 1)) := by
  have cursorLt := mending.bounded
  have positive : 0 < index.length := by omega
  obtain ⟨kept, entry', rowOf', slotEq⟩ := mending.held _ _ stored
  rw [rowOf] at rowOf'
  cases rowOf'
  have moved : ∀ slot : Nat, ((index.set (spot index.length base cursor) 0).set
      (spot index.length base target) (row + 1))[slot]? =
        if slot = spot index.length base target then some (row + 1)
        else if slot = spot index.length base cursor then some 0 else index[slot]? :=
    fun _ => getElem?_moved (spot_lt positive base cursor) (spot_lt positive base target)
  have apart : ∀ {left right : Nat}, left < index.length → right < index.length → left ≠ right →
      spot index.length base left ≠ spot index.length base right :=
    fun leftLt rightLt differ same => differ (spot_injective leftLt rightLt same)
  have rowsOf : ∀ (other : Nat) (otherEntry : SparseRow K V),
      (entries.modify row fun entry => { entry with slot := spot index.length base target })[other]? =
        some otherEntry →
      other = row ∧ otherEntry = { entry with slot := spot index.length base target } ∨
        other ≠ row ∧ entries[other]? = some otherEntry := by
    intro other otherEntry otherOf
    rcases eq_or_ne row other with rfl | differ
    · rw [List.getElem?_modify_eq, rowOf] at otherOf
      exact .inl ⟨rfl, by simpa using otherOf.symm⟩
    · rw [List.getElem?_modify_ne _ _ differ] at otherOf
      exact .inr ⟨differ.symm, otherOf⟩
  have stays : ∀ slot other : Nat, index[slot]? = some (other + 1) → other ≠ row →
      slot ≠ spot index.length base target ∧ slot ≠ spot index.length base cursor := by
    intro slot other otherOf differ
    have notCursor : slot ≠ spot index.length base cursor := by
      rintro rfl
      rw [stored] at otherOf
      exact differ (by simpa using otherOf.symm)
    refine ⟨?_, notCursor⟩
    rintro rfl
    rw [List.getElem?_set_ne notCursor.symm, otherOf] at free
    simp at free
  refine ⟨?_, ?_, ?_, ?_, ?_, ?_, ?_, ?_⟩
  · simpa using mending.size
  · exact Nat.lt_succ_of_lt mending.behind
  · simp only [List.length_set]
    omega
  · simp only [List.length_set]
    rw [moved, if_neg (apart (by omega) (by omega) (by omega)),
      if_neg (apart (by omega) (by omega) (by omega))]
    exact mending.cut
  · intro place late before
    simp only [List.length_set] at before ⊢
    obtain ⟨other, otherOf⟩ := mending.ahead place (by omega) before
    refine ⟨other, ?_⟩
    rw [moved, if_neg (apart (by omega) (by omega) (by omega)),
      if_neg (apart (by omega) (by omega) (by omega)), otherOf]
  · intro other otherEntry otherOf notRemoved
    rcases rowsOf other otherEntry otherOf with ⟨rfl, rfl⟩ | ⟨differ, otherOf⟩
    · rw [moved, if_pos rfl]
    · have old := mending.placed other otherEntry otherOf notRemoved
      obtain ⟨notTarget, notCursor⟩ := stays _ _ old differ
      rw [moved, if_neg notTarget, if_neg notCursor, old]
  · intro slot other otherOf
    rw [moved] at otherOf
    split at otherOf
    · obtain rfl : row = other := by simpa using otherOf
      refine ⟨kept, { entry with slot := spot index.length base target }, ?_, ‹slot = _›.symm⟩
      rw [List.getElem?_modify_eq, rowOf]
      rfl
    · split at otherOf
      · simp at otherOf
      · obtain ⟨notRemoved, otherEntry, entryOf, otherSlot⟩ := mending.held slot other otherOf
        refine ⟨notRemoved, otherEntry, ?_, otherSlot⟩
        rw [List.getElem?_modify_ne, entryOf]
        rintro rfl
        rw [rowOf] at entryOf
        cases entryOf
        exact absurd (otherSlot.symm.trans slotEq) ‹¬slot = spot index.length base cursor›
  · intro other otherEntry otherOf notRemoved home' place home'Lt placeLt home'Eq placeEq
    simp only [List.length_set] at home'Lt placeLt home'Eq placeEq ⊢
    rcases rowsOf other otherEntry otherOf with ⟨rfl, rfl⟩ | ⟨differ, otherOf⟩
    · obtain rfl : place = target := spot_injective placeLt (by omega) placeEq
      obtain rfl : home = home' := spot_injective homeLt home'Lt (homeEq.trans home'Eq.symm)
      refine ⟨fromHome, ?_⟩
      intro between late before
      obtain ⟨passedRow, passedOf⟩ := passed between late before
      refine .inl ⟨passedRow, ?_⟩
      rw [moved, if_neg (apart (by omega) (by omega) (by omega)),
        if_neg (apart (by omega) (by omega) (by omega)), passedOf]
    · obtain ⟨le, chain⟩ := mending.chained other otherEntry otherOf notRemoved home' place home'Lt
        placeLt home'Eq placeEq
      refine ⟨le, ?_⟩
      intro between late before
      have notCursor : place ≠ cursor := by
        rintro rfl
        have old := mending.placed other otherEntry otherOf notRemoved
        rw [← placeEq, stored] at old
        exact differ (by simpa using old.symm)
      rcases chain between late before with ⟨passedRow, passedOf⟩ | gap
      · rcases eq_or_ne between target with rfl | notTarget
        · exact .inl ⟨row, by rw [moved, if_pos rfl]⟩
        · rcases eq_or_ne between cursor with rfl | away
          · have := mending.behind
            exact .inr (by omega)
          · refine .inl ⟨passedRow, ?_⟩
            rw [moved, if_neg (apart (by omega) (by omega) notTarget),
              if_neg (apart (by omega) (by omega) away), passedOf]
      · exact .inr (by omega)

/-! ## The whole repair -/

theorem pairs_modify_slot (row slot : Nat) :
    pairs (entries.modify row fun entry => { entry with slot }) = pairs entries := by
  apply List.ext_getElem?
  intro other
  simp only [pairs, List.getElem?_map, List.getElem?_modify]
  split
  · cases entries[other]? <;> rfl
  · cases entries[other]? <;> rfl

theorem Mending.findEmptySlotIn_eq (mending : Mending hash entries removed base hole cursor index)
    {value home : Nat} (homeEq : spot index.length base home = value % index.length)
    (fromHome : home ≤ target) (upToCursor : target ≤ cursor)
    (free : (index.set (spot index.length base cursor) 0)[spot index.length base target]? = some 0)
    (passed : ∀ between, home ≤ between → between < target →
      Taken index (spot index.length base between)) :
    findEmptySlotIn (index.set (spot index.length base cursor) 0) value =
      some (spot index.length base target) := by
  obtain ⟨bits, size⟩ := mending.size
  have cursorLt := mending.bounded
  have along : ∀ more, spot index.length value more = spot index.length base (home + more) := by
    intro more
    rw [← spot_home, ← homeEq, spot_spot]
  have size' : (index.set (spot index.length base cursor) 0).length = 2 ^ bits := by
    rw [List.length_set, size]
  have reached := seek_eq size' (fun _ => some false) value (target - home) 0 index.length (by omega)
    (fun earlier before => by
      obtain ⟨row, rowOf⟩ := passed (home + earlier) (by omega) (by omega)
      refine ⟨row, ?_, rfl⟩
      rw [List.length_set, Nat.zero_add, along, List.getElem?_set_ne, rowOf]
      intro same
      have := spot_injective cursorLt (by omega) same
      omega)
    (.inl (by
      rw [List.length_set, Nat.zero_add, along, Nat.add_sub_cancel' fromHome, free]))
  simp only [List.length_set, Nat.zero_add, along, Nat.add_sub_cancel' fromHome, Nat.add_zero]
    at reached
  have atHome : homeSlot index.length value = some (spot index.length base home) := by
    rw [homeSlot_eq size, homeEq]
  simp [findEmptySlotIn, List.length_set, atHome, reached]

theorem Mending.run : ∀ (fuel cursor : Nat) (index : List Nat) (entries : List (SparseRow K V)),
    Mending hash entries removed base hole cursor index → index.length - cursor ≤ fuel →
      (∃ index' entries',
        reinsertCluster hash fuel index entries (spot index.length base cursor) =
          some (index', entries') ∧
        index'.length = index.length ∧ pairs entries' = pairs entries ∧
        Mending hash entries' removed base hole (index.length - 1) index') ∨
      reinsertCluster hash fuel index entries (spot index.length base cursor) = none ∧
        2 ^ 32 < index.length := by
  intro fuel
  induction fuel with
  | zero =>
      intro cursor index entries mending enough
      have := mending.bounded
      omega
  | succ fuel inductionHypothesis =>
      intro cursor index entries mending enough
      have cursorLt := mending.bounded
      rcases Nat.lt_or_ge cursor (index.length - 1) with early | last
      · obtain ⟨row, stored⟩ := mending.ahead cursor (Nat.le_refl _) early
        obtain ⟨_, entry, rowOf, _⟩ := mending.held _ _ stored
        obtain ⟨home, target, homeLt, homeEq, fromHome, upToCursor, filled, free, passed⟩ :=
          mending.exists_target rowOf stored
        have found := mending.findEmptySlotIn_eq homeEq fromHome upToCursor free passed
        rcases Nat.lt_or_ge (spot index.length base target) (2 ^ 32) with small | large
        · have next := mending.step early rowOf stored homeLt homeEq fromHome upToCursor filled free
            passed
          obtain ⟨bits, size⟩ := mending.size
          have goes := inductionHypothesis (cursor + 1) _ _ next
            (by simp only [List.length_set]; omega)
          simp only [List.length_set, pairs_modify_slot] at goes
          have advance : nextSlot (spot index.length base cursor) index.length =
              spot index.length base (cursor + 1) := nextSlot_eq size _
          simpa [reinsertCluster, stored, rowOf, found, castChecked_eq small, advance] using goes
        · have bounded := spot_lt (Nat.zero_lt_of_lt cursorLt) base target
          refine .inr ⟨?_, by omega⟩
          simp [reinsertCluster, stored, rowOf, found, castChecked_eq_none large]
      · obtain rfl : cursor = index.length - 1 := by omega
        refine .inl ⟨index, entries, ?_, rfl, rfl, mending⟩
        simp [reinsertCluster, mending.cut]

/-! ## Moving the last row -/

/-- Once the cursor is at the cut, every row left is reached over taken slots. -/
theorem Mending.chain (mending : Mending hash entries removed base hole (index.length - 1) index)
    (rowOf : entries[row]? = some entry) (kept : row ≠ removed) : ∃ steps < index.length,
      entry.slot = spot index.length (hash entry.key) steps ∧
      ∀ earlier < steps, Taken index (spot index.length (hash entry.key) earlier) := by
  have stored := mending.placed row entry rowOf kept
  have slotLt := (List.getElem?_eq_some_iff.mp stored).1
  have positive : 0 < index.length := by omega
  obtain ⟨home, homeLt, homeEq⟩ := exists_spot base (Nat.mod_lt (hash entry.key) positive)
  obtain ⟨place, placeLt, placeEq⟩ := exists_spot base slotLt
  obtain ⟨le, between⟩ := mending.chained row entry rowOf kept home place homeLt placeLt homeEq placeEq
  have beforeCut : place ≠ index.length - 1 := by
    rintro rfl
    rw [← placeEq, mending.cut] at stored
    simp at stored
  have along : ∀ more, spot index.length (hash entry.key) more =
      spot index.length base (home + more) := by
    intro more
    rw [← spot_home, ← homeEq, spot_spot]
  refine ⟨place - home, by omega, by rw [along, Nat.add_sub_cancel' le, placeEq], ?_⟩
  intro earlier before
  rw [along]
  rcases between (home + earlier) (by omega) (by omega) with taken | gap
  · exact taken
  · omega

/-- The rows after the last one has taken the place of the removed one. -/
def swapRemove (entries : List (SparseRow K V)) (removed : Nat) : List (SparseRow K V) :=
  match entries.getLast? with
  | none => []
  | some last => (entries.set removed last).dropLast

theorem pairs_swapRemove (removedLt : removed < entries.length) :
    (pairs (swapRemove entries removed)).Perm ((pairs entries).eraseIdx removed) := by
  obtain ⟨front, last, rfl⟩ := List.eq_nil_or_concat entries |>.resolve_left
    (List.ne_nil_of_length_pos (by omega))
  rw [List.concat_eq_append] at removedLt ⊢
  simp only [swapRemove, List.getLast?_append, List.getLast?_singleton, Option.some_or]
  rcases Nat.lt_or_ge removed front.length with inFront | atEnd
  · rw [List.set_append_left _ _ inFront, List.dropLast_concat, pairs, pairs, List.map_append,
      List.eraseIdx_append_of_lt_length (by simpa using inFront), List.map_set]
    have bounded : removed < (front.map fun entry => (entry.key, entry.value)).length := by
      simpa using inFront
    exact (List.set_perm_cons_eraseIdx bounded _).trans (List.perm_append_singleton _ _).symm
  · obtain rfl : removed = front.length := by
      rw [List.length_append, List.length_singleton] at removedLt
      omega
    simp [pairs, List.eraseIdx_append_of_length_le]

theorem getElem?_pairs_swapRemove (removedLt : removed < entries.length) (early : row < removed) :
    (pairs (swapRemove entries removed))[row]? = (pairs entries)[row]? := by
  obtain ⟨last, lastOf⟩ : ∃ last, entries.getLast? = some last := by
    rw [List.getLast?_eq_getElem?]
    exact ⟨_, List.getElem?_eq_getElem (by omega)⟩
  simp only [pairs, swapRemove, lastOf, List.getElem?_map, List.getElem?_dropLast, List.length_set]
  rw [if_pos (by omega), List.getElem?_set_ne (by omega)]

theorem getElem?_swapRemove {last : SparseRow K V} (lastOf : entries.getLast? = some last)
    (rowOf : (swapRemove entries removed)[row]? = some entry) :
    row < entries.length - 1 ∧ (row = removed ∧ entry = last ∨
      row ≠ removed ∧ entries[row]? = some entry) := by
  simp only [swapRemove, lastOf, List.getElem?_dropLast, List.length_set] at rowOf
  split at rowOf
  · refine ⟨‹_›, ?_⟩
    rcases eq_or_ne removed row with rfl | differ
    · rw [List.getElem?_set_self (by omega)] at rowOf
      exact .inl ⟨rfl, by simpa using rowOf.symm⟩
    · rw [List.getElem?_set_ne differ] at rowOf
      exact .inr ⟨differ.symm, rowOf⟩
  · cases rowOf

/-- The table after the last row has taken the place of the removed one. -/
theorem Mending.sound (mending : Mending hash entries removed base hole (index.length - 1) index)
    (spare : entries.length < index.length) (distinct : (entries.map SparseRow.key).Nodup)
    (removedLt : removed < entries.length) {last : SparseRow K V}
    (lastOf : entries.getLast? = some last) {index' : List Nat}
    (moved : index' = if removed ≠ entries.length - 1 then index.set last.slot (removed + 1)
      else index) :
    Sound hash (entries.length - 1) index' (swapRemove entries removed) := by
  have lastRow : entries[entries.length - 1]? = some last := by
    rw [← List.getLast?_eq_getElem?, lastOf]
  have size : index'.length = index.length := by
    rw [moved]
    split <;> simp
  have length : (swapRemove entries removed).length = entries.length - 1 := by
    simp [swapRemove, lastOf]
  -- What the slots hold: the last row is known under the number of the removed one.
  have slots : ∀ slot row : Nat, index'[slot]? = some (row + 1) ↔
      removed ≠ entries.length - 1 ∧ slot = last.slot ∧ row = removed ∨
        (removed ≠ entries.length - 1 → slot ≠ last.slot) ∧ index[slot]? = some (row + 1) := by
    intro slot row
    rw [moved]
    by_cases inside : removed ≠ entries.length - 1
    · have lastLt := (List.getElem?_eq_some_iff.mp
        (mending.placed _ last lastRow (Ne.symm inside))).1
      rw [if_pos inside]
      rcases eq_or_ne last.slot slot with rfl | differ
      · rw [List.getElem?_set_self lastLt]
        simp [inside, eq_comm]
      · rw [List.getElem?_set_ne differ]
        simp [inside, differ.symm]
    · simp [inside]
  have rowLast : ∀ {slot row : Nat}, index[slot]? = some (row + 1) →
      (removed ≠ entries.length - 1 → slot ≠ last.slot) → row < entries.length - 1 := by
    intro slot row stored away
    obtain ⟨kept, entry, rowOf, rfl⟩ := mending.held slot row stored
    have rowLt := (List.getElem?_eq_some_iff.mp rowOf).1
    rcases Nat.lt_or_ge row (entries.length - 1) with before | atLast
    · exact before
    · obtain rfl : row = entries.length - 1 := by omega
      rw [lastRow] at rowOf
      cases rowOf
      exact absurd rfl (away (Ne.symm kept))
  have taken : ∀ {slot : Nat}, Taken index slot →
      ∃ row < entries.length - 1, index'[slot]? = some (row + 1) := by
    rintro slot ⟨row, stored⟩
    by_cases isLast : removed ≠ entries.length - 1 ∧ slot = last.slot
    · exact ⟨removed, by omega, (slots _ _).mpr (.inl ⟨isLast.1, isLast.2, rfl⟩)⟩
    · have away : removed ≠ entries.length - 1 → slot ≠ last.slot :=
        fun inside same => isLast ⟨inside, same⟩
      exact ⟨row, rowLast stored away, (slots _ _).mpr (.inr ⟨away, stored⟩)⟩
  have chained : ∀ {row : Nat} {entry : SparseRow K V}, entries[row]? = some entry →
      row ≠ removed → Chain index' (entries.length - 1) (hash entry.key) entry.slot := by
    intro row entry rowOf kept
    obtain ⟨steps, stepsLt, slotEq, passed⟩ := mending.chain rowOf kept
    refine ⟨steps, by rwa [size], by rwa [size], ?_⟩
    intro earlier before
    rw [size]
    exact taken (passed earlier before)
  refine ⟨by rw [size]; exact mending.size, by rw [size, length]; omega, by rw [length], ?_, ?_, ?_, ?_⟩
  · intro row entry rowOf
    obtain ⟨rowLt, ⟨rfl, rfl⟩ | ⟨kept, rowOf⟩⟩ := getElem?_swapRemove lastOf rowOf
    · exact (slots _ _).mpr (.inl ⟨by omega, rfl, rfl⟩)
    · refine (slots _ _).mpr (.inr ⟨?_, mending.placed row entry rowOf kept⟩)
      intro inside same
      have lastStored := mending.placed _ last lastRow (Ne.symm inside)
      rw [← same, mending.placed row entry rowOf kept] at lastStored
      simp only [Option.some.injEq, Nat.add_right_cancel_iff] at lastStored
      omega
  · intro slot row stored
    rcases (slots slot row).mp stored with ⟨inside, rfl, rfl⟩ | ⟨away, old⟩
    · refine ⟨last, ?_, rfl⟩
      simp only [swapRemove, lastOf, List.getElem?_dropLast, List.length_set]
      rw [if_pos (by omega), List.getElem?_set_self removedLt]
    · obtain ⟨kept, entry, rowOf, slotEq⟩ := mending.held slot row old
      refine ⟨entry, ?_, slotEq⟩
      simp only [swapRemove, lastOf, List.getElem?_dropLast, List.length_set]
      rw [if_pos (rowLast old away), List.getElem?_set_ne kept.symm, rowOf]
  · intro row entry rowOf
    obtain ⟨rowLt, ⟨rfl, rfl⟩ | ⟨kept, rowOf⟩⟩ := getElem?_swapRemove lastOf rowOf
    · rw [Nat.max_eq_left (by omega)]
      exact chained lastRow (by omega)
    · rw [Nat.max_eq_left (by omega)]
      exact chained rowOf kept
  · have perm := (pairs_swapRemove removedLt).map Prod.fst
    rw [← keys_pairs, perm.nodup_iff]
    rw [← keys_pairs] at distinct
    exact distinct.sublist ((List.eraseIdx_sublist _ _).map _)

/-- A removal erases one row, or stops at a slot past the 32 bits a row keeps of it. -/
theorem Sound.removeSlot [DecidableEq K] {self : SparseHashMap K V}
    (sound : Sound hash floor self.index self.entries) (rowOf : self.entries[removed]? = some entry) :
    (∃ after, self.removeSlot hash entry.slot = some after ∧
        Sound hash (self.entries.length - 1) after.index after.entries ∧
        after.index.length = self.index.length ∧ after.capacity = self.capacity ∧
        (pairs after.entries).Perm ((pairs self.entries).eraseIdx removed) ∧
        ∀ row < removed, (pairs after.entries)[row]? = (pairs self.entries)[row]?) ∨
      self.removeSlot hash entry.slot = none ∧ 2 ^ 32 < self.index.length := by
  have stored := sound.placed removed entry rowOf
  have removedLt := (List.getElem?_eq_some_iff.mp rowOf).1
  obtain ⟨base, hole, mending, next⟩ := sound.mending stored
  have goes := mending.run self.index.length (hole + 1) _ _ (by simp)
  rw [List.length_set, ← next] at goes
  rcases goes with ⟨index', entries', ran, size, samePairs, mended⟩ | ⟨stops, large⟩
  · have sameLength : entries'.length = self.entries.length := by
      simpa [pairs] using congrArg List.length samePairs
    obtain ⟨last, lastOf⟩ : ∃ last, entries'.getLast? = some last := by
      rw [List.getLast?_eq_getElem?]
      exact ⟨_, List.getElem?_eq_getElem (by omega)⟩
    have keys : entries'.map SparseRow.key = self.entries.map SparseRow.key := by
      rw [← keys_pairs, samePairs, keys_pairs]
    rw [← size] at mended
    have spare := sound.spare
    have after := mended.sound (by omega) (keys ▸ sound.distinct) (by omega) lastOf rfl
    have perm : (pairs (swapRemove entries' removed)).Perm ((pairs entries').eraseIdx removed) :=
      pairs_swapRemove (by omega)
    rw [sameLength] at after
    rw [samePairs] at perm
    have before : ∀ row < removed,
        (pairs (swapRemove entries' removed))[row]? = (pairs self.entries)[row]? := by
      intro row early
      rw [← samePairs]
      exact getElem?_pairs_swapRemove (by omega) early
    left
    by_cases inside : removed ≠ self.entries.length - 1
    · rw [if_pos inside] at after
      refine ⟨{ self with
          index := index'.set last.slot (removed + 1)
          entries := swapRemove entries' removed },
        ?_, after, by simpa using size, rfl, perm, before⟩
      simp [SparseHashMap.removeSlot, rowAt, stored, ran, lastOf, sameLength, inside, swapRemove]
    · rw [if_neg inside] at after
      refine ⟨{ self with index := index', entries := swapRemove entries' removed },
        ?_, after, size, rfl, perm, before⟩
      have atLast : removed = entries'.length - 1 := by omega
      have setLast : (entries'.set removed last).dropLast = entries'.dropLast := by
        apply List.ext_getElem?
        intro row
        rw [List.getElem?_dropLast, List.getElem?_dropLast, List.length_set]
        split
        · rw [List.getElem?_set_ne (by omega)]
        · rfl
      simp [SparseHashMap.removeSlot, rowAt, stored, ran, lastOf, sameLength, inside, swapRemove,
        setLast]
  · refine .inr ⟨?_, large⟩
    simp [SparseHashMap.removeSlot, rowAt, stored, stops]

end SparseHashMap

end EvmZig.State
