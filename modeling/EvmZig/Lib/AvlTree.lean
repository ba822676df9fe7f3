import Mathlib.Algebra.Order.Ring.Int
import Mathlib.Order.Basic
import Mathlib.Order.Compare
import Mathlib.Data.List.Basic
import Mathlib.Tactic.Common

/-!
# Height-balanced trees

Insertion into a search tree that is rebalanced by rotations on the way back.
Rotations keep the items in their order, so what insertion does to the items
and what it does to the heights are separate questions.
-/

set_option autoImplicit false

namespace EvmZig.Lib

inductive AvlTree (α : Type) where
  | leaf
  | node (left : AvlTree α) (item : α) (right : AvlTree α)
  deriving DecidableEq

namespace AvlTree

variable {α κ : Type}

def height : AvlTree α → Nat
  | leaf => 0
  | node left _ right => 1 + max left.height right.height

def size : AvlTree α → Nat
  | leaf => 0
  | node left _ right => left.size + 1 + right.size

/-- The items from left to right. -/
def items : AvlTree α → List α
  | leaf => []
  | node left item right => left.items ++ item :: right.items

def rotateRight : AvlTree α → AvlTree α
  | node (node outer pivot inner) item right => node outer pivot (node inner item right)
  | tree => tree

def rotateLeft : AvlTree α → AvlTree α
  | node left item (node inner pivot outer) => node (node left item inner) pivot outer
  | tree => tree

/-- The left subtree is the lower one. -/
def LeansRight : AvlTree α → Prop
  | leaf => False
  | node left _ right => left.height < right.height

def LeansLeft : AvlTree α → Prop
  | leaf => False
  | node left _ right => right.height < left.height

instance (tree : AvlTree α) : Decidable tree.LeansRight := by
  cases tree <;> unfold LeansRight <;> infer_instance

instance (tree : AvlTree α) : Decidable tree.LeansLeft := by
  cases tree <;> unfold LeansLeft <;> infer_instance

@[simp] theorem leansRight_node (left : AvlTree α) (item : α) (right : AvlTree α) :
    (node left item right).LeansRight ↔ left.height < right.height := Iff.rfl

@[simp] theorem leansLeft_node (left : AvlTree α) (item : α) (right : AvlTree α) :
    (node left item right).LeansLeft ↔ right.height < left.height := Iff.rfl

def rebalance (left : AvlTree α) (item : α) (right : AvlTree α) : AvlTree α :=
  if right.height + 1 < left.height then
    rotateRight (node (if left.LeansRight then left.rotateLeft else left) item right)
  else if left.height + 1 < right.height then
    rotateLeft (node left item (if right.LeansLeft then right.rotateRight else right))
  else node left item right

/-- Insert an item whose key is not in the tree. -/
def insert [LinearOrder κ] (key : α → κ) (fresh : α) : AvlTree α → AvlTree α
  | leaf => node leaf fresh leaf
  | node left item right =>
      if key fresh < key item then rebalance (left.insert key fresh) item right
      else rebalance left item (right.insert key fresh)

/-! ## Items -/

theorem items_length (tree : AvlTree α) : tree.items.length = tree.size := by
  induction tree with
  | leaf => rfl
  | node left item right ihLeft ihRight =>
      rw [items, List.length_append, List.length_cons, ihLeft, ihRight, size]
      omega

theorem height_le_size (tree : AvlTree α) : tree.height ≤ tree.size := by
  induction tree with
  | leaf => exact Nat.le_refl 0
  | node left item right ihLeft ihRight =>
      rw [height, size]
      omega

@[simp] theorem items_rotateRight (tree : AvlTree α) : tree.rotateRight.items = tree.items := by
  cases tree with
  | leaf => rfl
  | node left item right =>
      cases left with
      | leaf => rfl
      | node outer pivot inner => simp [rotateRight, items]

@[simp] theorem items_rotateLeft (tree : AvlTree α) : tree.rotateLeft.items = tree.items := by
  cases tree with
  | leaf => rfl
  | node left item right =>
      cases right with
      | leaf => rfl
      | node inner pivot outer => simp [rotateLeft, items]

@[simp] theorem items_rebalance (left : AvlTree α) (item : α) (right : AvlTree α) :
    (rebalance left item right).items = left.items ++ item :: right.items := by
  unfold rebalance
  split
  · rw [items_rotateRight, items]
    split
    · rw [items_rotateLeft]
    · rfl
  · split
    · rw [items_rotateLeft, items]
      split
      · rw [items_rotateRight]
      · rfl
    · rfl

/-- Keys strictly ascend. -/
def Ordered [LinearOrder κ] (key : α → κ) (tree : AvlTree α) : Prop :=
  tree.items.Pairwise fun item later => key item < key later

/-- A new item goes between the smaller and the larger ones. -/
theorem items_insert [LinearOrder κ] {key : α → κ} {fresh : α} {tree : AvlTree α}
    (ordered : tree.Ordered key) (absent : ∀ item ∈ tree.items, key item ≠ key fresh) :
    ∃ before after, tree.items = before ++ after ∧
      (tree.insert key fresh).items = before ++ fresh :: after ∧
      (∀ item ∈ before, key item < key fresh) ∧ ∀ item ∈ after, key fresh < key item := by
  induction tree with
  | leaf =>
      refine ⟨[], [], rfl, rfl, fun _ member => ?_, fun _ member => ?_⟩
      · cases member
      · cases member
  | node left item right ihLeft ihRight =>
      obtain ⟨leftOrdered, rest, across⟩ := List.pairwise_append.mp ordered
      obtain ⟨below, rightOrdered⟩ := List.pairwise_cons.mp rest
      have inLeft : ∀ other ∈ left.items, other ∈ (node left item right).items := fun other member =>
        List.mem_append_left _ member
      have inRight : ∀ other ∈ right.items, other ∈ (node left item right).items := fun other member =>
        List.mem_append_right _ (List.mem_cons_of_mem _ member)
      unfold insert
      by_cases less : key fresh < key item
      · obtain ⟨before, after, split, inserted, smaller, larger⟩ :=
          ihLeft leftOrdered fun other member => absent other (inLeft other member)
        refine ⟨before, after ++ item :: right.items, ?_, ?_, smaller, fun other member => ?_⟩
        · rw [items, split, List.append_assoc]
        · rw [if_pos less, items_rebalance, inserted, List.append_assoc, List.cons_append]
        · rcases List.mem_append.mp member with inAfter | beyond
          · exact larger other inAfter
          · rcases List.mem_cons.mp beyond with rfl | far
            · exact less
            · exact less.trans (below other far)
      · have here : item ∈ (node left item right).items :=
          List.mem_append_right _ List.mem_cons_self
        have greater : key item < key fresh :=
          lt_of_le_of_ne (not_lt.mp less) (absent item here)
        obtain ⟨before, after, split, inserted, smaller, larger⟩ :=
          ihRight rightOrdered fun other member => absent other (inRight other member)
        refine ⟨left.items ++ item :: before, after, ?_, ?_, fun other member => ?_, larger⟩
        · rw [items, split, List.append_assoc, List.cons_append]
        · rw [if_neg less, items_rebalance, inserted, List.append_assoc, List.cons_append]
        · rcases List.mem_append.mp member with inLeft | near
          · exact (across other inLeft item List.mem_cons_self).trans greater
          · rcases List.mem_cons.mp near with rfl | inBefore
            · exact greater
            · exact smaller other inBefore

theorem Ordered.insert [LinearOrder κ] {key : α → κ} {fresh : α} {tree : AvlTree α}
    (ordered : tree.Ordered key) (absent : ∀ item ∈ tree.items, key item ≠ key fresh) :
    (tree.insert key fresh).Ordered key := by
  obtain ⟨before, after, split, inserted, smaller, larger⟩ := items_insert ordered absent
  unfold Ordered at ordered ⊢
  rw [split] at ordered
  obtain ⟨beforeOrdered, afterOrdered, across⟩ := List.pairwise_append.mp ordered
  rw [inserted]
  refine List.pairwise_append.mpr ⟨beforeOrdered, List.pairwise_cons.mpr ⟨larger, afterOrdered⟩,
    fun item inBefore other member => ?_⟩
  rcases List.mem_cons.mp member with rfl | inAfter
  · exact smaller item inBefore
  · exact across item inBefore other inAfter

theorem items_insert_perm [LinearOrder κ] (key : α → κ) (fresh : α) (tree : AvlTree α) :
    (tree.insert key fresh).items.Perm (fresh :: tree.items) := by
  induction tree with
  | leaf => exact .refl _
  | node left item right ihLeft ihRight =>
      unfold insert
      split
      · rw [items_rebalance, items]
        exact ihLeft.append_right _
      · rw [items_rebalance, items]
        refine ((ihRight.cons item).append_left left.items).trans ?_
        refine ((List.Perm.swap fresh item right.items).append_left left.items).trans ?_
        exact List.perm_middle

/-! ## Heights -/

/-- At every node the heights of the subtrees differ by one at most. -/
def Balanced : AvlTree α → Prop
  | leaf => True
  | node left _ right =>
      left.Balanced ∧ right.Balanced ∧ left.height ≤ right.height + 1 ∧ right.height ≤ left.height + 1

theorem height_rotateLeft_le (tree : AvlTree α) : tree.rotateLeft.height ≤ tree.height + 1 := by
  cases tree with
  | leaf => exact Nat.zero_le _
  | node left item right =>
      cases right with
      | leaf => exact Nat.le_succ _
      | node inner pivot outer =>
          simp only [rotateLeft, height]
          omega

theorem height_rotateRight_le (tree : AvlTree α) : tree.rotateRight.height ≤ tree.height + 1 := by
  cases tree with
  | leaf => exact Nat.zero_le _
  | node left item right =>
      cases left with
      | leaf => exact Nat.le_succ _
      | node outer pivot inner =>
          simp only [rotateRight, height]
          omega

/-- Rebalancing makes up for a difference of two. -/
theorem rebalance_balanced {left right : AvlTree α} (item : α) (leftBalanced : left.Balanced)
    (rightBalanced : right.Balanced) (leftHigh : left.height ≤ right.height + 2)
    (rightHigh : right.height ≤ left.height + 2) :
    (rebalance left item right).Balanced ∧
      max left.height right.height ≤ (rebalance left item right).height ∧
      (rebalance left item right).height ≤ 1 + max left.height right.height ∧
      (left.height ≤ right.height + 1 → right.height ≤ left.height + 1 →
        (rebalance left item right).height = 1 + max left.height right.height) := by
  unfold rebalance
  by_cases heavyLeft : right.height + 1 < left.height
  · rw [if_pos heavyLeft]
    cases left with
    | leaf => exact absurd heavyLeft (Nat.not_lt_zero _)
    | node outer pivot inner =>
        obtain ⟨outerBalanced, innerBalanced, outerLow, innerLow⟩ := leftBalanced
        simp only [height] at heavyLeft leftHigh rightHigh
        by_cases leans : outer.height < inner.height
        · rw [if_pos ((leansRight_node ..).mpr leans)]
          cases inner with
          | leaf => exact absurd leans (Nat.not_lt_zero _)
          | node near middle far =>
              obtain ⟨nearBalanced, farBalanced, nearLow, farLow⟩ := innerBalanced
              simp only [rotateLeft, rotateRight, Balanced, height] at *
              refine ⟨⟨⟨outerBalanced, nearBalanced, ?_, ?_⟩, ⟨farBalanced, rightBalanced, ?_, ?_⟩,
                ?_, ?_⟩,
                ?_, ?_, ?_⟩ <;> omega
        · rw [if_neg (fun leansRight => leans ((leansRight_node ..).mp leansRight))]
          simp only [rotateRight, Balanced, height] at *
          refine ⟨⟨outerBalanced, ⟨innerBalanced, rightBalanced, ?_, ?_⟩, ?_, ?_⟩, ?_, ?_, ?_⟩ <;> omega
  · rw [if_neg heavyLeft]
    by_cases heavyRight : left.height + 1 < right.height
    · rw [if_pos heavyRight]
      cases right with
      | leaf => exact absurd heavyRight (Nat.not_lt_zero _)
      | node inner pivot outer =>
          obtain ⟨innerBalanced, outerBalanced, innerLow, outerLow⟩ := rightBalanced
          simp only [height] at heavyRight heavyLeft leftHigh rightHigh
          by_cases leans : outer.height < inner.height
          · rw [if_pos ((leansLeft_node ..).mpr leans)]
            cases inner with
            | leaf => exact absurd leans (Nat.not_lt_zero _)
            | node near middle far =>
                obtain ⟨nearBalanced, farBalanced, nearLow, farLow⟩ := innerBalanced
                simp only [rotateLeft, rotateRight, Balanced, height] at *
                refine ⟨⟨⟨leftBalanced, nearBalanced, ?_, ?_⟩, ⟨farBalanced, outerBalanced, ?_, ?_⟩,
                  ?_, ?_⟩,
                  ?_, ?_, ?_⟩ <;> omega
          · rw [if_neg (fun leansLeft => leans ((leansLeft_node ..).mp leansLeft))]
            simp only [rotateLeft, Balanced, height] at *
            refine ⟨⟨⟨leftBalanced, innerBalanced, ?_, ?_⟩, outerBalanced, ?_, ?_⟩, ?_, ?_, ?_⟩ <;> omega
    · rw [if_neg heavyRight]
      refine ⟨⟨leftBalanced, rightBalanced, ?_, ?_⟩, Nat.le_add_left _ 1, Nat.le_refl _, fun _ _ => rfl⟩
      · exact Nat.le_of_not_lt heavyLeft
      · exact Nat.le_of_not_lt heavyRight

/-- Insertion raises the height by one at most. -/
theorem Balanced.insert [LinearOrder κ] (key : α → κ) (fresh : α) {tree : AvlTree α}
    (balanced : tree.Balanced) :
    (tree.insert key fresh).Balanced ∧ tree.height ≤ (tree.insert key fresh).height ∧
      (tree.insert key fresh).height ≤ tree.height + 1 := by
  induction tree with
  | leaf => exact ⟨⟨trivial, trivial, Nat.le_succ _, Nat.le_succ _⟩, Nat.zero_le _, Nat.le_refl _⟩
  | node left item right ihLeft ihRight =>
      obtain ⟨leftBalanced, rightBalanced, leftLow, rightLow⟩ := balanced
      unfold AvlTree.insert
      split
      · obtain ⟨inserted, grows, byOne⟩ := ihLeft leftBalanced
        obtain ⟨balanced, low, high, exactly⟩ :=
          rebalance_balanced item inserted rightBalanced (by omega) (by omega)
        refine ⟨balanced, ?_, ?_⟩
        · rw [height]
          by_cases close : (left.insert key fresh).height ≤ right.height + 1
          · rw [exactly close (by omega)]
            omega
          · omega
        · rw [height]
          omega
      · obtain ⟨inserted, grows, byOne⟩ := ihRight rightBalanced
        obtain ⟨balanced, low, high, exactly⟩ :=
          rebalance_balanced item leftBalanced inserted (by omega) (by omega)
        refine ⟨balanced, ?_, ?_⟩
        · rw [height]
          by_cases close : (right.insert key fresh).height ≤ left.height + 1
          · rw [exactly (by omega) close]
            omega
          · omega
        · rw [height]
          omega

/-- A balanced tree is logarithmic in its size. -/
theorem Balanced.size_bound {tree : AvlTree α} (balanced : tree.Balanced) (levels : Nat)
    (high : 2 * levels ≤ tree.height) : 2 ^ levels ≤ tree.size + 1 := by
  induction levels generalizing tree with
  | zero =>
      rw [Nat.pow_zero]
      exact Nat.le_add_left _ _
  | succ levels ih =>
      cases tree with
      | leaf => exact absurd high (by simp [height])
      | node left item right =>
          obtain ⟨leftBalanced, rightBalanced, leftLow, rightLow⟩ := balanced
          rw [height] at high
          have inLeft := ih leftBalanced (by omega)
          have inRight := ih rightBalanced (by omega)
          rw [Nat.pow_succ, size]
          omega

end AvlTree

end EvmZig.Lib
