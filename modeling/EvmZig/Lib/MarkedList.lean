import Mathlib.Data.List.Nodup
import Mathlib.Tactic.Common

/-!
# Lists kept in step with marks

A list collects the items whose mark was set.  A mark that is taken back leaves
its item in the list, so the list may then hold unmarked items and repeats;
`compact` drops both, keeping the first occurrence of each marked item.  A
prefix of the list is accepted: its items stay marked and are never listed
again.
-/

set_option autoImplicit false

namespace EvmZig.Lib

variable {ι : Type}

/-- The list is exactly the marked items, each once. -/
structure Exact (marked : ι → Prop) (items : List ι) : Prop where
  nodup : items.Nodup
  mem : ∀ item, item ∈ items ↔ marked item

/-- The list covers the marked items; until some mark is taken back it is exact. -/
structure Tracked (marked : ι → Prop) (items : List ι) (accepted : Nat) (takenBack : Prop) :
    Prop where
  inside : accepted ≤ items.length
  listed : ∀ item, marked item → item ∈ items
  kept : ∀ item ∈ items.take accepted, marked item
  once : (items.take accepted).Nodup
  apart : ∀ item ∈ items.drop accepted, item ∉ items.take accepted
  exact : ¬takenBack → Exact marked items

namespace Exact

variable {marked marked' : ι → Prop} {items : List ι}

theorem congr (same : ∀ item, marked' item ↔ marked item) (held : Exact marked items) :
    Exact marked' items :=
  ⟨held.nodup, fun item => (held.mem item).trans (same item).symm⟩

theorem empty (none : ∀ item, ¬marked item) : Exact marked [] := by
  refine ⟨List.nodup_nil, ?_⟩
  intro item
  simp [none item]

/-- An exact list is tracked whatever part of it is accepted. -/
theorem tracked_of_le {accepted : Nat} (held : Exact marked items)
    (inside : accepted ≤ items.length) (takenBack : Prop) :
    Tracked marked items accepted takenBack := by
  refine ⟨inside, fun item mark => (held.mem item).mpr mark, ?_, ?_, ?_, fun _ => held⟩
  · intro item member
    exact (held.mem item).mp (List.mem_of_mem_take member)
  · exact held.nodup.sublist (List.take_sublist _ _)
  · intro item dropped taken
    have nodup := held.nodup
    rw [← List.take_append_drop accepted items, List.nodup_append] at nodup
    exact nodup.2.2 item taken item dropped rfl

/-- An exact list starts out tracked, all of it accepted. -/
theorem tracked (held : Exact marked items) (takenBack : Prop) :
    Tracked marked items items.length takenBack :=
  held.tracked_of_le (Nat.le_refl _) takenBack

theorem append {item : ι} (held : Exact marked items) (fresh : ¬marked item)
    (adds : ∀ other, marked' other ↔ marked other ∨ other = item) :
    Exact marked' (items ++ [item]) := by
  refine ⟨?_, ?_⟩
  · rw [List.nodup_append]
    refine ⟨held.nodup, List.nodup_singleton _, ?_⟩
    intro left leftMember right rightMember same
    rw [List.mem_singleton] at rightMember
    subst rightMember
    subst same
    exact fresh ((held.mem left).mp leftMember)
  · intro other
    rw [List.mem_append, List.mem_singleton, held.mem, adds]

end Exact

namespace Tracked

variable {marked marked' : ι → Prop} {items items' : List ι} {accepted : Nat}
  {takenBack takenBack' : Prop}

theorem congr (same : ∀ item, marked' item ↔ marked item)
    (held : Tracked marked items accepted takenBack) :
    Tracked marked' items accepted takenBack :=
  ⟨held.inside, fun item mark => held.listed item ((same item).mp mark),
    fun item member => (same item).mpr (held.kept item member), held.once, held.apart,
    fun exact => (held.exact exact).congr same⟩

theorem append {item : ι} (held : Tracked marked items accepted takenBack) (fresh : ¬marked item)
    (adds : ∀ other, marked' other ↔ marked other ∨ other = item) :
    Tracked marked' (items ++ [item]) accepted takenBack := by
  have takeEq : (items ++ [item]).take accepted = items.take accepted :=
    List.take_append_of_le_length held.inside
  have dropEq : (items ++ [item]).drop accepted = items.drop accepted ++ [item] :=
    List.drop_append_of_le_length held.inside
  refine ⟨?_, ?_, ?_, ?_, ?_, fun exact => (held.exact exact).append fresh adds⟩
  · rw [List.length_append]
    exact Nat.le_add_right_of_le held.inside
  · intro other mark
    rw [List.mem_append, List.mem_singleton]
    exact ((adds other).mp mark).imp (held.listed other) id
  · intro other member
    rw [takeEq] at member
    exact (adds other).mpr (.inl (held.kept other member))
  · rw [takeEq]
    exact held.once
  · intro other member
    rw [dropEq, List.mem_append, List.mem_singleton] at member
    rw [takeEq]
    rcases member with member | rfl
    · exact held.apart other member
    · exact fun accepted => fresh (held.kept other accepted)

/-- An item is appended exactly when it gains its mark. -/
theorem list_when {item : ι} {first : Bool} (held : Tracked marked items accepted takenBack)
    (fresh : first = true ↔ ¬marked item)
    (adds : ∀ other, marked' other ↔ marked other ∨ other = item) :
    Tracked marked' (if first then items ++ [item] else items) accepted takenBack := by
  cases first with
  | true => exact held.append (fresh.mp rfl) adds
  | false =>
      have already : marked item := by
        by_contra unmarked
        exact Bool.false_ne_true (fresh.mpr unmarked)
      refine held.congr fun other => (adds other).trans ?_
      constructor
      · rintro (mark | rfl)
        · exact mark
        · exact already
      · exact .inl

/-- Marks taken back to an earlier state: the longer list still covers them. -/
theorem rewind (earlier : Tracked marked items accepted takenBack)
    (later : Tracked marked' items' accepted takenBack') (grows : items <+: items') :
    Tracked marked items' accepted True := by
  have takeEq : items'.take accepted = items.take accepted := by
    obtain ⟨suffix, rfl⟩ := grows
    exact List.take_append_of_le_length earlier.inside
  refine ⟨later.inside, fun item mark => grows.subset (earlier.listed item mark), ?_, later.once,
    later.apart, fun absurd => absurd.elim trivial⟩
  intro item member
  rw [takeEq] at member
  exact earlier.kept item member

end Tracked

theorem prefix_when (first : Bool) (items : List ι) (item : ι) :
    items <+: if first then items ++ [item] else items := by
  cases first with
  | true => exact List.prefix_append _ _
  | false => exact List.prefix_refl _

/-! ## Compaction -/

section Compact

variable [DecidableEq ι]

/-- Keep the first occurrence of each marked item. -/
def compact (marked : ι → Bool) : List ι → List ι
  | [] => []
  | item :: items =>
      if marked item then item :: compact (fun other => marked other && other ≠ item) items
      else compact marked items

theorem mem_compact {marked : ι → Bool} {items : List ι} {item : ι} :
    item ∈ compact marked items ↔ item ∈ items ∧ marked item = true := by
  induction items generalizing marked with
  | nil => simp [compact]
  | cons head items ih =>
      unfold compact
      by_cases headMarked : marked head = true
      · rw [if_pos headMarked, List.mem_cons, List.mem_cons, ih]
        simp only [Bool.and_eq_true, decide_eq_true_eq]
        constructor
        · rintro (rfl | ⟨member, mark, -⟩)
          · exact ⟨.inl rfl, headMarked⟩
          · exact ⟨.inr member, mark⟩
        · rintro ⟨rfl | member, mark⟩
          · exact .inl rfl
          · by_cases same : item = head
            · exact .inl same
            · exact .inr ⟨member, mark, same⟩
      · rw [if_neg headMarked, List.mem_cons, ih]
        constructor
        · rintro ⟨member, mark⟩
          exact ⟨.inr member, mark⟩
        · rintro ⟨rfl | member, mark⟩
          · exact absurd mark headMarked
          · exact ⟨member, mark⟩

theorem nodup_compact (marked : ι → Bool) (items : List ι) : (compact marked items).Nodup := by
  induction items generalizing marked with
  | nil => exact List.nodup_nil
  | cons head items ih =>
      unfold compact
      split
      · rw [List.nodup_cons, mem_compact]
        refine ⟨?_, ih _⟩
        simp
      · exact ih _

theorem compact_congr {marked marked' : ι → Bool} {items : List ι}
    (same : ∀ item ∈ items, marked item = marked' item) :
    compact marked items = compact marked' items := by
  induction items generalizing marked marked' with
  | nil => rfl
  | cons head items ih =>
      have tailSame : ∀ item ∈ items, marked item = marked' item :=
        fun item member => same item (List.mem_cons_of_mem _ member)
      unfold compact
      rw [same head (List.mem_cons_self ..), ih tailSame]
      have rest : compact (fun other => marked other && decide (other ≠ head)) items =
          compact (fun other => marked' other && decide (other ≠ head)) items := by
        apply ih
        intro item member
        rw [tailSame item member]
      rw [rest]

/-- Items that bring no new mark change nothing. -/
theorem compact_append {marked : ι → Bool} {items extra : List ι}
    (seen : ∀ item ∈ extra, marked item = true → item ∈ items) :
    compact marked (items ++ extra) = compact marked items := by
  induction items generalizing marked with
  | nil =>
      rw [List.nil_append]
      have empty : ∀ item, item ∉ compact marked extra := by
        intro item member
        rw [mem_compact] at member
        exact List.not_mem_nil (seen item member.1 member.2)
      rw [List.eq_nil_iff_forall_not_mem.mpr empty]
      rfl
  | cons head items ih =>
      rw [List.cons_append]
      unfold compact
      have rest : ∀ item ∈ extra, (marked item && decide (item ≠ head)) = true → item ∈ items := by
        intro item member mark
        rw [Bool.and_eq_true, decide_eq_true_eq] at mark
        exact (List.mem_cons.mp (seen item member mark.1)).resolve_left mark.2
      split
      · rw [ih rest]
      · rename_i headUnmarked
        apply ih
        intro item member mark
        refine (List.mem_cons.mp (seen item member mark)).resolve_left ?_
        rintro rfl
        exact headUnmarked mark

/-- Compacting everything past the accepted prefix makes the list exact. -/
theorem Tracked.compacted {marked : ι → Bool} {items : List ι} {accepted : Nat} {takenBack : Prop}
    (held : Tracked (fun item => marked item = true) items accepted takenBack) :
    Exact (fun item => marked item = true)
      (items.take accepted ++ compact marked (items.drop accepted)) := by
  refine ⟨?_, ?_⟩
  · rw [List.nodup_append]
    refine ⟨held.once, nodup_compact _ _, ?_⟩
    intro left leftMember right rightMember same
    subst same
    exact held.apart left (mem_compact.mp rightMember).1 leftMember
  · intro item
    rw [List.mem_append, mem_compact]
    constructor
    · rintro (member | ⟨-, mark⟩)
      · exact held.kept item member
      · exact mark
    · intro mark
      have member := held.listed item mark
      rw [← List.take_append_drop accepted items, List.mem_append] at member
      exact member.imp id fun dropped => ⟨dropped, mark⟩

end Compact

end EvmZig.Lib
