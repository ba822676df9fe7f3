import Mathlib.Data.Finset.Card
import Mathlib.Data.List.Nodup
import Mathlib.Tactic.Common

/-!
# Dense keyed tables

Rows of a table are dense and keep their index; no two rows share a key.
Lookup by key and by index agree, an update keeps every key, and an admitted
row goes to the end.
-/

set_option autoImplicit false

namespace EvmZig.Lib

structure Table (κ ρ : Type) where
  rows : List (κ × ρ)
  unique : (rows.map Prod.fst).Nodup

namespace Table

variable {κ ρ : Type} {table : Table κ ρ} {index : Nat}

def empty : Table κ ρ := ⟨[], List.nodup_nil⟩

def count (table : Table κ ρ) : Nat := table.rows.length

def key (table : Table κ ρ) (index : Nat) : Option κ := (table.rows[index]?).map Prod.fst

def row (table : Table κ ρ) (index : Nat) : Option ρ := (table.rows[index]?).map Prod.snd

/-- Replace the row at `index`; out of range, nothing changes. -/
def set (table : Table κ ρ) (index : Nat) (value : ρ) : Table κ ρ where
  rows := table.rows.modify index fun entry => (entry.1, value)
  unique := by
    have keys : (table.rows.modify index fun entry => (entry.1, value)).map Prod.fst =
        table.rows.map Prod.fst := by
      apply List.ext_getElem?
      intro other
      rw [List.getElem?_map, List.getElem?_map, List.getElem?_modify]
      split
      · cases table.rows[other]? <;> rfl
      · cases table.rows[other]? <;> rfl
    rw [keys]
    exact table.unique

@[simp] theorem set_empty (index : Nat) (value : ρ) :
    (empty : Table κ ρ).set index value = empty := by
  rw [set, empty]
  congr 1
  exact List.modify_nil ..

/-- Drop the rows from `count` on. -/
def truncate (table : Table κ ρ) (count : Nat) : Table κ ρ where
  rows := table.rows.take count
  unique := by
    rw [List.map_take]
    exact table.unique.sublist (List.take_sublist _ _)

/-- Assign `values` to the first rows and drop the rows past them. -/
def overwrite (table : Table κ ρ) (values : List ρ) : Table κ ρ where
  rows := List.zipWith (fun entry value => (entry.1, value)) table.rows values
  unique := by
    have keys : (List.zipWith (fun entry value => (entry.1, value)) table.rows values).map Prod.fst =
        (table.rows.map Prod.fst).take values.length := by
      generalize table.rows = rows
      induction rows generalizing values with
      | nil => simp
      | cons entry rows ih =>
          cases values with
          | nil => rfl
          | cons value values =>
              simp only [List.zipWith_cons_cons, List.map_cons, List.length_cons, List.take_succ_cons]
              rw [ih]
    rw [keys]
    exact table.unique.sublist (List.take_sublist _ _)

/-- Rewrite every row, keeping its key. -/
def mapRows {τ : Type} (table : Table κ ρ) (rewrite : κ → ρ → τ) : Table κ τ where
  rows := table.rows.map fun entry => (entry.1, rewrite entry.1 entry.2)
  unique := by
    rw [List.map_map]
    exact table.unique

theorem eq_of_rows {left right : Table κ ρ} (same : left.rows = right.rows) : left = right := by
  cases left
  cases right
  cases same
  rfl

/-- Truncating to the count of an earlier state of the table. -/
theorem truncate_of_prefixed {earlier later : Table κ ρ} (grows : earlier.rows <+: later.rows) :
    later.truncate earlier.count = earlier :=
  eq_of_rows (List.prefix_iff_eq_take.mp grows).symm

/-- Overwriting with the rows of an earlier state whose keys are still in place. -/
theorem mem_of_overwrite {values : List ρ} {value : ρ}
    (found : (table.overwrite values).row index = some value) : value ∈ values := by
  obtain ⟨entry, held, rfl⟩ := Option.map_eq_some_iff.mp found
  rw [overwrite, List.getElem?_zipWith] at held
  split at held
  · rename_i there
    cases held
    exact List.mem_of_getElem? there
  · cases held

theorem overwrite_of_prefixed {earlier later : Table κ ρ}
    (grows : earlier.rows.map Prod.fst <+: later.rows.map Prod.fst) :
    later.overwrite (earlier.rows.map Prod.snd) = earlier := by
  apply eq_of_rows
  simp only [overwrite]
  generalize earlier.rows = old at grows ⊢
  generalize later.rows = new at grows ⊢
  induction old generalizing new with
  | nil => simp
  | cons entry old ih =>
      cases new with
      | nil =>
          obtain ⟨rest, contradiction⟩ := grows
          cases contradiction
      | cons other new =>
          simp only [List.map_cons, List.cons_prefix_cons] at grows
          simp only [List.map_cons, List.zipWith_cons_cons]
          rw [ih new grows.2, ← grows.1]

theorem row_isSome_iff (table : Table κ ρ) (index : Nat) :
    (table.row index).isSome ↔ (table.key index).isSome := by
  simp [row, key]

theorem key_eq_some_of_row {value : ρ} (found : table.row index = some value) :
    ∃ key, table.key index = some key := by
  rw [← Option.isSome_iff_exists, ← row_isSome_iff, found]
  rfl

theorem row_eq_some_of_key {key : κ} (found : table.key index = some key) :
    ∃ value, table.row index = some value := by
  rw [← Option.isSome_iff_exists, row_isSome_iff, found]
  rfl

theorem key_lt {key : κ} (found : table.key index = some key) : index < table.count := by
  by_contra outside
  rw [Table.key, List.getElem?_eq_none (Nat.le_of_not_lt outside)] at found
  cases found

theorem key_inj {left right : Nat} {key : κ} (leftKey : table.key left = some key)
    (rightKey : table.key right = some key) : left = right := by
  have leftGet : (table.rows.map Prod.fst)[left]? = some key := by
    rw [List.getElem?_map]
    exact leftKey
  have rightGet : (table.rows.map Prod.fst)[right]? = some key := by
    rw [List.getElem?_map]
    exact rightKey
  have inside : left < (table.rows.map Prod.fst).length := by
    rw [List.length_map]
    exact key_lt leftKey
  exact (List.getElem?_inj inside table.unique).mp (leftGet.trans rightGet.symm)

@[simp] theorem key_set (table : Table κ ρ) (index other : Nat) (value : ρ) :
    (table.set index value).key other = table.key other := by
  simp only [key, set, List.getElem?_modify]
  split
  · cases table.rows[other]? <;> rfl
  · cases table.rows[other]? <;> rfl

theorem row_set_same {key : κ} (found : table.key index = some key) (value : ρ) :
    (table.set index value).row index = some value := by
  obtain ⟨entry, entryEq, -⟩ := Option.map_eq_some_iff.mp found
  simp [row, set, entryEq]

theorem row_set_other (table : Table κ ρ) {other : Nat} (differs : other ≠ index) (value : ρ) :
    (table.set index value).row other = table.row other := by
  simp [row, set, Ne.symm differs]

/-- A row after an assignment is the assigned one or was there before. -/
theorem row_of_set {other : Nat} {old value held : ρ} (place : table.row index = some old)
    (found : (table.set index value).row other = some held) :
    (other = index ∧ held = value) ∨ table.row other = some held := by
  obtain ⟨key, keyEq⟩ := key_eq_some_of_row place
  by_cases here : other = index
  · rw [here, row_set_same keyEq] at found
    exact .inl ⟨here, (Option.some.inj found).symm⟩
  · rw [row_set_other table here] at found
    exact .inr found

theorem set_row_self {value : ρ} (found : table.row index = some value) :
    table.set index value = table := by
  obtain ⟨entry, entryEq, rfl⟩ := Option.map_eq_some_iff.mp found
  have same : (table.set index entry.2).rows = table.rows := by
    apply List.ext_getElem?
    intro other
    rw [set, List.getElem?_modify]
    split
    · rename_i here
      subst here
      rw [entryEq]
      rfl
    · cases table.rows[other]? <;> rfl
  cases table
  simpa only [set, mk.injEq] using same

/-- A table is its keys and rows. -/
theorem ext_rows {left right : Table κ ρ} (keys : ∀ index, left.key index = right.key index)
    (rows : ∀ index, left.row index = right.row index) : left = right := by
  apply eq_of_rows
  apply List.ext_getElem?
  intro index
  have sameKey := keys index
  have sameRow := rows index
  simp only [key, row] at sameKey sameRow
  revert sameKey sameRow
  cases left.rows[index]? with
  | none =>
      cases right.rows[index]? with
      | none => exact fun _ _ => rfl
      | some entry => exact fun contradiction => nomatch contradiction
  | some entry =>
      cases right.rows[index]? with
      | none => exact fun contradiction => nomatch contradiction
      | some other =>
          intro sameKey sameRow
          exact congrArg some (Prod.ext (Option.some.inj sameKey) (Option.some.inj sameRow))

section MapRows

variable {τ : Type} (rewrite : κ → ρ → τ)

@[simp] theorem key_mapRows (table : Table κ ρ) (index : Nat) :
    (table.mapRows rewrite).key index = table.key index := by
  simp only [key, mapRows, List.getElem?_map, Option.map_map]
  rfl

theorem row_mapRows {key : κ} (found : table.key index = some key) :
    (table.mapRows rewrite).row index = (table.row index).map (rewrite key) := by
  obtain ⟨entry, entryEq, rfl⟩ := Option.map_eq_some_iff.mp found
  simp [row, mapRows, entryEq]

end MapRows

section Lookup

variable [DecidableEq κ]

def find (table : Table κ ρ) (key : κ) : Option Nat :=
  (table.rows.map Prod.fst).idxOf? key

/-- The row of a key. -/
def value (table : Table κ ρ) (key : κ) : Option ρ :=
  (table.find key).bind table.row

theorem find_eq_some {key : κ} : table.find key = some index ↔ table.key index = some key := by
  have keyEq : table.key index = (table.rows.map Prod.fst)[index]? := by
    rw [List.getElem?_map]
    rfl
  rw [keyEq, find]
  constructor
  · intro found
    obtain ⟨inside, here⟩ := List.idxOf?_eq_some_iff.mp found
    rw [List.getElem?_eq_getElem inside, here.1]
  · intro found
    obtain ⟨inside, here⟩ := List.getElem?_eq_some_iff.mp found
    refine List.idxOf?_eq_some_iff.mpr ⟨inside, here, ?_⟩
    intro earlier before same
    have equal := (table.unique.getElem_inj_iff).mp (same.trans here.symm)
    omega

theorem find_eq_none {key : κ} : table.find key = none ↔ ∀ index, table.key index ≠ some key := by
  constructor
  · intro missing index found
    rw [find_eq_some.mpr found] at missing
    cases missing
  · intro missing
    cases found : table.find key with
    | none => rfl
    | some index => exact absurd (find_eq_some.mp found) (missing index)

theorem value_eq_row {key : κ} (found : table.key index = some key) :
    table.value key = table.row index := by
  rw [value, find_eq_some.mpr found]
  rfl

theorem value_eq_some {key : κ} {held : ρ} : table.value key = some held ↔
      ∃ index, table.key index = some key ∧ table.row index = some held := by
  rw [value, Option.bind_eq_some_iff]
  exact exists_congr fun index => and_congr_left fun _ => find_eq_some

theorem value_eq_none {key : κ} : table.value key = none ↔ table.find key = none := by
  constructor
  · intro missing
    cases found : table.find key with
    | none => rfl
    | some index =>
        obtain ⟨value, rowEq⟩ := row_eq_some_of_key (find_eq_some.mp found)
        rw [value_eq_row (find_eq_some.mp found), rowEq] at missing
        cases missing
  · intro missing
    rw [value, missing]
    rfl

@[simp] theorem find_set (table : Table κ ρ) (index : Nat) (value : ρ) (key : κ) :
    (table.set index value).find key = table.find key := by
  cases found : table.find key with
  | none =>
      rw [find_eq_none] at found ⊢
      simpa using found
  | some other =>
      rw [find_eq_some] at found ⊢
      simpa using found

theorem value_set_same {key : κ} (found : table.key index = some key) (value : ρ) :
    (table.set index value).value key = some value := by
  rw [value_eq_row (by rw [key_set]; exact found), row_set_same found]

theorem value_set_other {key other : κ} (found : table.key index = some key) (differs : other ≠ key)
    (value : ρ) : (table.set index value).value other = table.value other := by
  rw [Table.value, Table.value, find_set]
  cases otherFound : table.find other with
  | none => rfl
  | some otherIndex =>
      refine row_set_other table ?_ value
      rintro rfl
      rw [find_eq_some, found] at otherFound
      exact differs (Option.some.inj otherFound).symm

@[simp] theorem find_mapRows {τ : Type} (rewrite : κ → ρ → τ) (table : Table κ ρ) (key : κ) :
    (table.mapRows rewrite).find key = table.find key := by
  cases found : table.find key with
  | none =>
      rw [find_eq_none] at found ⊢
      simpa using found
  | some index =>
      rw [find_eq_some] at found ⊢
      simpa using found

theorem value_mapRows {τ : Type} (rewrite : κ → ρ → τ) (table : Table κ ρ) (key : κ) :
    (table.mapRows rewrite).value key = (table.value key).map (rewrite key) := by
  rw [value, value, find_mapRows]
  cases found : table.find key with
  | none => rfl
  | some index => exact row_mapRows rewrite (find_eq_some.mp found)

/-- Add a row for a key the table does not hold. -/
def admitRow (table : Table κ ρ) (key : κ) (value : ρ) (fresh : table.find key = none) :
    Table κ ρ where
  rows := table.rows ++ [(key, value)]
  unique := by
    rw [List.map_append, List.map_singleton, List.nodup_append]
    refine ⟨table.unique, List.nodup_singleton _, ?_⟩
    intro held heldIn other otherIn same
    rw [List.mem_singleton] at otherIn
    subst otherIn
    subst same
    obtain ⟨index, indexEq⟩ := List.getElem?_of_mem heldIn
    rw [List.getElem?_map] at indexEq
    exact find_eq_none.mp fresh index indexEq

theorem key_admitRow {key : κ} (fresh : table.find key = none) {value : ρ} {other : κ}
    (found : table.key index = some other) :
    (table.admitRow key value fresh).key index = some other := by
  have inside := key_lt found
  simp only [Table.key, admitRow]
  rw [List.getElem?_append_left inside]
  exact found

theorem row_admitRow {key : κ} (fresh : table.find key = none) {value : ρ} {held : ρ}
    (found : table.row index = some held) :
    (table.admitRow key value fresh).row index = some held := by
  obtain ⟨other, otherKey⟩ := key_eq_some_of_row found
  have inside := key_lt otherKey
  simp only [row, admitRow]
  rw [List.getElem?_append_left inside]
  exact found

theorem row_admit_other {key : κ} (fresh : table.find key = none) (value : ρ)
    (differs : index ≠ table.count) :
    (table.admitRow key value fresh).row index = table.row index := by
  simp only [row, admitRow]
  rcases Nat.lt_or_gt_of_ne differs with inside | outside
  · rw [List.getElem?_append_left inside]
  · rw [List.getElem?_append_right (Nat.le_of_lt outside),
      List.getElem?_eq_none (Nat.le_of_lt outside), List.getElem?_eq_none]
    exact Nat.le_sub_of_add_le' outside

theorem key_admit_last (table : Table κ ρ) (key : κ) (value : ρ) (fresh : table.find key = none) :
    (table.admitRow key value fresh).key table.count = some key := by
  simp [Table.key, admitRow, count]

theorem row_admit_last (table : Table κ ρ) (key : κ) (value : ρ) (fresh : table.find key = none) :
    (table.admitRow key value fresh).row table.count = some value := by
  simp [row, admitRow, count]

/-- A key of the extended table is the admitted one or was there before. -/
theorem key_of_admitRow {key : κ} {fresh : table.find key = none} {value : ρ} {other : κ}
    (found : (table.admitRow key value fresh).key index = some other) :
    table.key index = some other ∨ (index = table.count ∧ other = key) := by
  simp only [Table.key, admitRow] at found ⊢
  by_cases inside : index < table.rows.length
  · rw [List.getElem?_append_left inside] at found
    exact .inl found
  · rw [List.getElem?_append_right (Nat.le_of_not_lt inside)] at found
    obtain ⟨entry, entryEq, entryKey⟩ := Option.map_eq_some_iff.mp found
    obtain ⟨zero, single⟩ := List.getElem?_eq_some_iff.mp entryEq
    rw [List.length_singleton] at zero
    have indexEq : index = table.rows.length := by omega
    subst indexEq
    simp only [Nat.sub_self, List.getElem_cons_zero] at single
    subst single
    exact .inr ⟨rfl, entryKey.symm⟩

/-- A row of the extended table is the admitted one or was there before. -/
theorem row_of_admitRow {key : κ} {value held : ρ} (fresh : table.find key = none)
    (found : (table.admitRow key value fresh).row index = some held) :
    table.row index = some held ∨ held = value := by
  by_cases last : index = table.count
  · rw [last, row_admit_last] at found
    exact .inr (Option.some.inj found).symm
  · rw [row_admit_other fresh value last] at found
    exact .inl found

theorem value_admit_same (table : Table κ ρ) (key : κ) (value : ρ)
    (fresh : table.find key = none) : (table.admitRow key value fresh).value key = some value := by
  rw [value_eq_row (key_admit_last table key value fresh), row_admit_last]

theorem value_admit_other {key other : κ} {value : ρ} {fresh : table.find key = none}
    (differs : other ≠ key) : (table.admitRow key value fresh).value other = table.value other := by
  cases found : table.find other with
  | some index =>
      rw [find_eq_some] at found
      obtain ⟨held, heldEq⟩ := row_eq_some_of_key found
      rw [value_eq_row (key_admitRow fresh found), value_eq_row found, heldEq, row_admitRow fresh heldEq]
  | none =>
      rw [value_eq_none.mpr found, value_eq_none, find_eq_none]
      intro index indexKey
      rcases key_of_admitRow indexKey with held | ⟨-, same⟩
      · exact find_eq_none.mp found index held
      · exact differs same

/-- Overwrite the row of a key, adding it when there is none. -/
def put (table : Table κ ρ) (key : κ) (value : ρ) : Table κ ρ :=
  match found : table.find key with
  | some index => table.set index value
  | none => table.admitRow key value found

theorem value_put_same (table : Table κ ρ) (key : κ) (value : ρ) :
    (table.put key value).value key = some value := by
  unfold put
  split
  · rename_i index found
    exact value_set_same (find_eq_some.mp found) value
  · exact value_admit_same _ _ _ _

theorem find_put_same (table : Table κ ρ) (key : κ) (value : ρ) :
    ∃ index, (table.put key value).find key = some index := by
  cases found : (table.put key value).find key with
  | some index => exact ⟨index, rfl⟩
  | none =>
      have missing := value_eq_none.mpr found
      rw [value_put_same] at missing
      cases missing

theorem key_put {key other : κ} (value : ρ) (found : table.key index = some other) :
    (table.put key value).key index = some other := by
  unfold put
  split
  · rw [key_set, found]
  · exact key_admitRow _ found

theorem row_put_same {key : κ} {value : ρ} (found : (table.put key value).find key = some index) :
    (table.put key value).row index = some value := by
  have held := value_put_same table key value
  rw [Table.value, found] at held
  exact held

theorem row_put_other {key : κ} {value : ρ} {other : Nat}
    (found : (table.put key value).find key = some index) (differs : other ≠ index) :
    (table.put key value).row other = table.row other := by
  unfold put at found ⊢
  split at found
  · rename_i place placed
    rw [find_set, placed] at found
    obtain rfl := Option.some.inj found
    exact row_set_other _ differs _
  · rename_i missing
    have last := key_admit_last table key value missing
    have here : index = table.count := key_inj (find_eq_some.mp found) last
    exact row_admit_other missing value (here ▸ differs)

theorem value_put_other (table : Table κ ρ) {key other : κ} (differs : other ≠ key) (value : ρ) :
    (table.put key value).value other = table.value other := by
  unfold put
  split
  · rename_i index found
    exact value_set_other (find_eq_some.mp found) differs value
  · exact value_admit_other differs

theorem value_of_mem {entry : κ × ρ} (member : entry ∈ table.rows) :
    table.value entry.1 = some entry.2 := by
  obtain ⟨index, found⟩ := List.getElem?_of_mem member
  have keyEq : table.key index = some entry.1 := by rw [Table.key, found]; rfl
  have rowEq : table.row index = some entry.2 := by rw [row, found]; rfl
  exact value_eq_some.mpr ⟨index, keyEq, rowEq⟩

theorem mapRows_congr {τ : Type} {left right : κ → ρ → τ}
    (same : ∀ key held, table.value key = some held → left key held = right key held) :
    table.mapRows left = table.mapRows right := by
  apply eq_of_rows
  apply List.map_congr_left
  intro entry member
  rw [same entry.1 entry.2 (value_of_mem member)]

/-- A put over a held key rewrites the one row of that key. -/
theorem put_eq_mapRows {key : κ} {held value : ρ} (found : table.value key = some held) :
    table.put key value = table.mapRows fun other row => if other = key then value else row := by
  obtain ⟨index, keyEq, -⟩ := value_eq_some.mp found
  unfold put
  split
  · next place placed =>
      obtain rfl := key_inj (find_eq_some.mp placed) keyEq
      apply eq_of_rows
      apply List.ext_getElem?
      intro other
      simp only [set, mapRows, List.getElem?_modify, List.getElem?_map]
      cases entryEq : table.rows[other]? with
      | none => simp
      | some entry =>
          have otherKey : table.key other = some entry.1 := by rw [Table.key, entryEq]; rfl
          by_cases here : place = other
          · subst here
            rw [otherKey, Option.some.injEq] at keyEq
            simp [keyEq]
          · have differs : entry.1 ≠ key := fun same => here (key_inj keyEq (same ▸ otherKey))
            simp [here, differs]
  · next missing =>
      rw [find_eq_some.mpr keyEq] at missing
      cases missing

/-! ## Bounded room -/

theorem find_put_eq_none {key other : κ} {value : ρ} :
    (table.put key value).find other = none ↔ table.find other = none ∧ other ≠ key := by
  by_cases same : other = key
  · subst same
    obtain ⟨index, found⟩ := find_put_same table other value
    rw [found]
    simp
  · rw [← value_eq_none, value_put_other table same value, value_eq_none]
    simp [same]

theorem count_put_found {key : κ} {value : ρ} (found : table.find key = some index) :
    (table.put key value).count = table.count := by
  unfold put
  split
  · simp [count, set]
  · rename_i missing
    rw [found] at missing
    cases missing

theorem count_put_missing {key : κ} {value : ρ} (missing : table.find key = none) :
    (table.put key value).count = table.count + 1 := by
  unfold put
  split
  · rename_i index found
    rw [missing] at found
    cases found
  · simp [count, admitRow]

/-- A row of that key is there to be overwritten, or there is room for one more. -/
def HasNode (capacity : Nat) (key : κ) (table : Table κ ρ) : Prop :=
  table.find key = none → table.count < capacity

instance (capacity : Nat) (key : κ) (table : Table κ ρ) : Decidable (HasNode capacity key table) :=
  inferInstanceAs (Decidable (_ → _))

/-- Each of the puts, in turn, has a row to go to. -/
def PutsFit (capacity : Nat) : List (κ × ρ) → Table κ ρ → Prop
  | [], _ => True
  | (key, value) :: puts, table =>
      table.HasNode capacity key ∧ PutsFit capacity puts (table.put key value)

/-- The keys that are put and have no row yet. -/
def missing (puts : List (κ × ρ)) (table : Table κ ρ) : Finset κ :=
  (puts.map Prod.fst).toFinset.filter fun key => table.find key = none

theorem missing_put_found {key : κ} {value : ρ} (puts : List (κ × ρ))
    (found : table.find key = some index) :
    missing puts (table.put key value) = missing ((key, value) :: puts) table := by
  ext other
  have differs : table.find other = none → other ≠ key := by
    rintro none rfl
    rw [found] at none
    cases none
  simp only [missing, List.map_cons, List.toFinset_cons, Finset.mem_filter, Finset.mem_insert,
    find_put_eq_none]
  constructor
  · rintro ⟨member, none, -⟩
    exact ⟨.inr member, none⟩
  · rintro ⟨same | member, none⟩
    · exact absurd same (differs none)
    · exact ⟨member, none, differs none⟩

theorem missing_put_missing {key : κ} {value : ρ} (puts : List (κ × ρ))
    (absent : table.find key = none) :
    missing ((key, value) :: puts) table = insert key (missing puts (table.put key value)) := by
  ext other
  simp only [missing, List.map_cons, List.toFinset_cons, Finset.mem_filter, Finset.mem_insert,
    find_put_eq_none]
  constructor
  · rintro ⟨same | member, none⟩
    · exact .inl same
    · by_cases same : other = key
      · exact .inl same
      · exact .inr ⟨member, none, same⟩
  · rintro (same | ⟨member, none, -⟩)
    · exact ⟨.inl same, same ▸ absent⟩
    · exact ⟨.inr member, none⟩

/-- Puts fit just when there is room for every key that is missing. -/
theorem putsFit_iff {capacity : Nat} {puts : List (κ × ρ)} :
    PutsFit capacity puts table ↔ (missing puts table).card ≤ capacity - table.count := by
  induction puts generalizing table with
  | nil => simp [PutsFit, missing]
  | cons put puts ih =>
      obtain ⟨key, value⟩ := put
      rw [PutsFit, ih]
      cases found : table.find key with
      | some index =>
          have room : table.HasNode capacity key := fun none => by
            rw [found] at none
            cases none
          rw [missing_put_found puts found, count_put_found found]
          exact and_iff_right room
      | none =>
          have fresh : key ∉ missing puts (table.put key value) := by
            intro member
            exact (find_put_eq_none.mp (Finset.mem_filter.mp member).2).2 rfl
          have room : table.HasNode capacity key ↔ table.count < capacity :=
            ⟨fun has => has found, fun less _ => less⟩
          rw [missing_put_missing puts found, Finset.card_insert_of_notMem fresh,
            count_put_missing found, room]
          omega

theorem putsFit_of_found {capacity : Nat} {puts : List (κ × ρ)}
    (found : ∀ put ∈ puts, table.find put.1 ≠ none) : PutsFit capacity puts table := by
  have none : missing puts table = ∅ := by
    rw [missing, Finset.filter_eq_empty_iff]
    intro key member absent
    obtain ⟨put, held, rfl⟩ := List.mem_map.mp (List.mem_toFinset.mp member)
    exact found put held absent
  rw [putsFit_iff, none]
  exact Nat.zero_le _

end Lookup

end Table

end EvmZig.Lib
