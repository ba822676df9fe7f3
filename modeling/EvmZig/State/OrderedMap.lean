import Mathlib.Data.List.Nodup
import Mathlib.Data.Nat.Basic
import EvmZig.Lib.AvlTree
import EvmZig.Zig.Checked
import EvmZig.Zig.Unsigned

/-!
# Ordered maps (`src/state/ordered_map.zig`)

Nodes stay where they were appended; the links between them make up a
height-balanced tree.  `none` of the source is no link.  A function of the arena
is undefined where the source indexes out of bounds or overflows a height.
-/

set_option autoImplicit false

namespace EvmZig.State

open Lib Zig

/-- `Node`. -/
structure MapNode (K V : Type) where
  key : K
  value : V
  left : Option Nat
  right : Option Nat
  height : Nat
  deriving DecidableEq

def MapNode.entry {K V : Type} (node : MapNode K V) : K × V := (node.key, node.value)

structure OrderedMap (K V : Type) where
  nodes : List (MapNode K V) := []
  /-- `nodes.capacity`. -/
  capacity : Nat := 0
  root : Option Nat := none
  deriving DecidableEq

namespace OrderedMap

variable {K V : Type} {node : MapNode K V} {index pivot : Nat} {pivotKey : K}
  {outer inner : AvlTree (Nat × K)}

abbrev Arena (K V : Type) : Type := List (MapNode K V)

/-- The reserved index. -/
def noIndex : Nat := 2 ^ 32 - 1

def height (nodes : Arena K V) : Option Nat → Option Nat
  | none => some 0
  | some index => nodes[index]?.map (·.height)

def refreshHeight (nodes : Arena K V) (index : Nat) : Option (Arena K V) := do
  let node ← nodes[index]?
  let height ← addChecked 8 1 (max (← height nodes node.left) (← height nodes node.right))
  return nodes.modify index fun node => { node with height }

def balanceFactor (nodes : Arena K V) (index : Option Nat) : Option Int := do
  let node ← nodes[← index]?
  let left ← height nodes node.left
  let right ← height nodes node.right
  return (left : Int) - right

def rotateRight (nodes : Arena K V) (index : Nat) : Option (Nat × Arena K V) := do
  let node ← nodes[index]?
  let pivot ← node.left
  let pivotNode ← nodes[pivot]?
  let nodes := nodes.modify index fun node => { node with left := pivotNode.right }
  let nodes := nodes.modify pivot fun node => { node with right := some index }
  let nodes ← refreshHeight nodes index
  let nodes ← refreshHeight nodes pivot
  return (pivot, nodes)

def rotateLeft (nodes : Arena K V) (index : Nat) : Option (Nat × Arena K V) := do
  let node ← nodes[index]?
  let pivot ← node.right
  let pivotNode ← nodes[pivot]?
  let nodes := nodes.modify index fun node => { node with right := pivotNode.left }
  let nodes := nodes.modify pivot fun node => { node with left := some index }
  let nodes ← refreshHeight nodes index
  let nodes ← refreshHeight nodes pivot
  return (pivot, nodes)

/-- The first rotation of a double one, on the left. -/
def straightenLeft (nodes : Arena K V) (index : Nat) : Option (Arena K V) := do
  let node ← nodes[index]?
  if (← balanceFactor nodes node.left) < 0 then
    let (pivot, nodes) ← rotateLeft nodes (← node.left)
    return nodes.modify index fun node => { node with left := some pivot }
  else return nodes

def straightenRight (nodes : Arena K V) (index : Nat) : Option (Arena K V) := do
  let node ← nodes[index]?
  if (← balanceFactor nodes node.right) > 0 then
    let (pivot, nodes) ← rotateRight nodes (← node.right)
    return nodes.modify index fun node => { node with right := some pivot }
  else return nodes

def rebalance (nodes : Arena K V) (index : Nat) : Option (Nat × Arena K V) := do
  let nodes ← refreshHeight nodes index
  let balance ← balanceFactor nodes (some index)
  if balance > 1 then rotateRight (← straightenLeft nodes index) index
  else if balance < -1 then rotateLeft (← straightenRight nodes index) index
  else return (index, nodes)

variable [LinearOrder K]

/-- The loop of `get` and `putAssumeCapacity`; `fuel` bounds its rounds. -/
def descend (nodes : Arena K V) (key : K) : Nat → Option Nat → Option (Option Nat)
  | 0, _ => none
  | _ + 1, none => some none
  | fuel + 1, some index => do
      let node ← nodes[index]?
      match compare key node.key with
      | .eq => return some index
      | .lt => descend nodes key fuel node.left
      | .gt => descend nodes key fuel node.right

/-- `insertBalanced`; `fuel` bounds the depth of the recursion. -/
def insertBalanced (fresh : Nat) : Nat → Arena K V → Option Nat → Option (Nat × Arena K V)
  | 0, _, _ => none
  | _ + 1, nodes, none => some (fresh, nodes)
  | fuel + 1, nodes, some index => do
      let node ← nodes[index]?
      match compare (← nodes[fresh]?).key node.key with
      | .lt =>
          let (child, nodes) ← insertBalanced fresh fuel nodes node.left
          rebalance (nodes.modify index fun node => { node with left := some child }) index
      | .gt =>
          let (child, nodes) ← insertBalanced fresh fuel nodes node.right
          rebalance (nodes.modify index fun node => { node with right := some child }) index
      | .eq => none

/-- As many rounds as there are nodes, and one for the end. -/
def rounds (nodes : Arena K V) : Nat := nodes.length + 1

def get (self : OrderedMap K V) (key : K) : Option (Option V) := do
  match ← descend self.nodes key (rounds self.nodes) self.root with
  | none => return none
  | some index => return some (← self.nodes[index]?).value

/-- `allocator` grants room for more nodes than are asked for, or fails. -/
def ensureUnusedCapacity (self : OrderedMap K V) (additional : Nat) (allocator : Option Nat) :
    OrderedMap K V :=
  match allocator with
  | none => self
  | some more => { self with
      capacity := max self.capacity (self.nodes.length + additional + more) }

def putAssumeCapacity (self : OrderedMap K V) (key : K) (value : V) : Option (OrderedMap K V) := do
  match ← descend self.nodes key (rounds self.nodes) self.root with
  | some index => return { self with nodes := self.nodes.modify index fun node => { node with value } }
  | none =>
      assert (self.nodes.length < self.capacity)
      assert (self.nodes.length < noIndex)
      let fresh := self.nodes.length
      let nodes := self.nodes ++ [{ key, value, left := none, right := none, height := 1 }]
      let (root, nodes) ← insertBalanced fresh (rounds self.nodes) nodes self.root
      return { self with nodes, root := some root }

def clearRetainingCapacity (self : OrderedMap K V) : OrderedMap K V :=
  { self with nodes := [], root := none }

/-! ## Trees in the arena -/

section Shows

omit [LinearOrder K]

/-- The links from `root` make up the tree, whose items name a node and its key, and the heights stored
in it are right. -/
inductive Shows (nodes : Arena K V) : Option Nat → AvlTree (Nat × K) → Prop
  | leaf : Shows nodes none .leaf
  | node {index : Nat} {node : MapNode K V} {left right : AvlTree (Nat × K)}
      (found : nodes[index]? = some node) (inLeft : Shows nodes node.left left)
      (inRight : Shows nodes node.right right)
      (height : node.height = 1 + max left.height right.height) :
      Shows nodes (some index) (.node left (index, node.key) right)

def indices (tree : AvlTree (Nat × K)) : List Nat := tree.items.map Prod.fst

/-- The links of one node are right; its height may not be. -/
structure Linked (nodes : Arena K V) (index : Nat) (key : K) (left right : AvlTree (Nat × K)) :
    Prop where
  node : ∃ node, nodes[index]? = some node ∧ node.key = key ∧ Shows nodes node.left left ∧
    Shows nodes node.right right

/-- Only nodes of the list have changed, and none has another key or value. -/
structure Relinked (inside : List Nat) (nodes after : Arena K V) : Prop where
  length : after.length = nodes.length
  outside : ∀ index : Nat, index ∉ inside → after[index]? = nodes[index]?
  entry : ∀ index : Nat, after[index]?.map MapNode.entry = nodes[index]?.map MapNode.entry

variable {nodes after last : Arena K V} {root : Option Nat} {index : Nat} {key : K}
  {tree left right : AvlTree (Nat × K)} {inside wider : List Nat}

theorem indices_node (left right : AvlTree (Nat × K)) (index : Nat) (key : K) :
    indices (.node left (index, key) right) = indices left ++ index :: indices right := by
  rw [indices, AvlTree.items, List.map_append, List.map_cons]
  rfl

theorem nodup_node :
    (indices (.node left (index, key) right)).Nodup ↔ (indices left).Nodup ∧ (indices right).Nodup ∧
      index ∉ indices left ∧ index ∉ indices right ∧ ∀ other ∈ indices left, other ∉ indices right := by
  rw [indices_node, List.nodup_append, List.nodup_cons]
  constructor
  · rintro ⟨leftNodup, ⟨notRight, rightNodup⟩, apart⟩
    refine ⟨leftNodup, rightNodup, fun member => ?_, notRight, fun other member inRight => ?_⟩
    · exact apart index member index List.mem_cons_self rfl
    · exact apart other member other (List.mem_cons_of_mem _ inRight) rfl
  · rintro ⟨leftNodup, rightNodup, notLeft, notRight, apart⟩
    refine ⟨leftNodup, ⟨notRight, rightNodup⟩, fun other member same inRight equal => ?_⟩
    subst equal
    rcases List.mem_cons.mp inRight with rfl | far
    · exact notLeft member
    · exact apart other member far

theorem modify_same (found : nodes[index]? = some node) (update : MapNode K V → MapNode K V) :
    (nodes.modify index update)[index]? = some (update node) := by
  simp [found]

theorem modify_other {other : Nat} (differs : other ≠ index) (update : MapNode K V → MapNode K V) :
    (nodes.modify index update)[other]? = nodes[other]? := by
  simp [Ne.symm differs]

namespace Relinked

theorem refl (inside : List Nat) (nodes : Arena K V) : Relinked inside nodes nodes :=
  ⟨rfl, fun _ _ => rfl, fun _ => rfl⟩

theorem trans (first : Relinked inside nodes after) (second : Relinked inside after last) :
    Relinked inside nodes last :=
  ⟨second.length.trans first.length,
    fun index aside => (second.outside index aside).trans (first.outside index aside),
    fun index => (second.entry index).trans (first.entry index)⟩

theorem widen (relinked : Relinked inside nodes after) (within : ∀ index ∈ inside, index ∈ wider) :
    Relinked wider nodes after :=
  ⟨relinked.length, fun index aside => relinked.outside index fun member => aside (within index member),
    relinked.entry⟩

theorem modify (nodes : Arena K V) (member : index ∈ inside) {update : MapNode K V → MapNode K V}
    (entry : ∀ node, (update node).entry = node.entry) :
    Relinked inside nodes (nodes.modify index update) := by
  refine ⟨List.length_modify .., fun other aside => ?_, fun other => ?_⟩
  · refine modify_other (fun same => ?_) update
    subst same
    exact aside member
  · rw [List.getElem?_modify]
    cases nodes[other]? with
    | none => rfl
    | some node =>
        by_cases here : index = other
        · simp [if_pos here, entry node]
        · simp [if_neg here]

end Relinked

/-- A tree is shown by its own nodes. -/
theorem Shows.frame (shows : Shows nodes root tree)
    (same : ∀ index ∈ indices tree, after[index]? = nodes[index]?) : Shows after root tree := by
  induction shows with
  | leaf => exact .leaf
  | node found inLeft inRight height ihLeft ihRight =>
      rw [indices_node] at same
      refine .node ((same _ ?_).trans found) (ihLeft fun index member => same index ?_)
        (ihRight fun index member => same index ?_) height
      · exact List.mem_append_right _ List.mem_cons_self
      · exact List.mem_append_left _ member
      · exact List.mem_append_right _ (List.mem_cons_of_mem _ member)

theorem Shows.relinked (shows : Shows nodes root tree) (relinked : Relinked inside nodes after)
    (apart : ∀ index ∈ indices tree, index ∉ inside) : Shows after root tree :=
  shows.frame fun index member => relinked.outside index (apart index member)

theorem Shows.height_eq (shows : Shows nodes root tree) : height nodes root = some tree.height := by
  cases shows with
  | leaf => rfl
  | node found inLeft inRight height =>
      rw [OrderedMap.height, found, Option.map_some, height]
      rfl

theorem Shows.linked (shows : Shows nodes (some index) tree) :
    ∃ left key right, tree = .node left (index, key) right ∧ Linked nodes index key left right := by
  cases shows with
  | node found inLeft inRight height => exact ⟨_, _, _, rfl, _, found, rfl, inLeft, inRight⟩

/-! ## Heights -/

theorem refreshHeight_shows (linked : Linked nodes index key left right)
    (nodup : (indices (.node left (index, key) right)).Nodup)
    (fits : 1 + max left.height right.height < 2 ^ 8) :
    ∃ after, refreshHeight nodes index = some after ∧ Relinked [index] nodes after ∧
      Shows after (some index) (.node left (index, key) right) := by
  obtain ⟨node, found, rfl, inLeft, inRight⟩ := linked
  obtain ⟨-, -, notLeft, notRight, -⟩ := nodup_node.mp nodup
  have relinked : Relinked [index] nodes
      (nodes.modify index fun node => { node with height := 1 + max left.height right.height }) :=
    .modify nodes List.mem_cons_self fun _ => rfl
  have apart : ∀ {side : AvlTree (Nat × K)}, index ∉ indices side →
      ∀ other ∈ indices side, other ∉ [index] := by
    intro side absent other member here
    exact absent (List.mem_singleton.mp here ▸ member)
  refine ⟨_, ?_, relinked, ?_⟩
  · simp only [refreshHeight, found, inLeft.height_eq, inRight.height_eq, addChecked, if_pos fits,
      Option.bind_eq_bind, Option.bind_some]
    rfl
  · have here : (nodes.modify index fun node =>
        { node with height := 1 + max left.height right.height })[index]? =
        some { node with height := 1 + max left.height right.height } := modify_same found _
    have shows := Shows.node here (inLeft.relinked relinked (apart notLeft))
      (inRight.relinked relinked (apart notRight)) rfl
    exact shows

theorem Linked.balanceFactor_eq (linked : Linked nodes index key left right) :
    balanceFactor nodes (some index) = some ((left.height : Int) - right.height) := by
  obtain ⟨node, found, -, inLeft, inRight⟩ := linked
  simp only [balanceFactor, found, inLeft.height_eq, inRight.height_eq, Option.bind_eq_bind,
    Option.bind_some]
  rfl

/-! ## Rotations -/

theorem Linked.relinked (linked : Linked nodes index key left right)
    (relinked : Relinked inside nodes after)
    (here : after[index]? = nodes[index]?) (leftApart : ∀ other ∈ indices left, other ∉ inside)
    (rightApart : ∀ other ∈ indices right, other ∉ inside) : Linked after index key left right := by
  obtain ⟨node, found, same, inLeft, inRight⟩ := linked
  exact ⟨node, here.trans found, same, inLeft.relinked relinked leftApart,
    inRight.relinked relinked rightApart⟩

/-- Nodes of a tree shown by other nodes are not touched. -/
theorem rotateRight_shows
    (linked : Linked nodes index key (.node outer (pivot, pivotKey) inner) right)
    (nodup : (indices (.node (.node outer (pivot, pivotKey) inner) (index, key) right)).Nodup)
    (fits : 2 + max outer.height (1 + max inner.height right.height) < 2 ^ 8) :
    ∃ after, rotateRight nodes index = some (pivot, after) ∧ Relinked [index, pivot] nodes after ∧
      Shows after (some pivot) (.node outer (pivot, pivotKey) (.node inner (index, key) right)) := by
  obtain ⟨node, found, rfl, inLeft, inRight⟩ := linked
  obtain ⟨leftNodup, rightNodup, notLeft, notRight, apart⟩ := nodup_node.mp nodup
  obtain ⟨outerNodup, innerNodup, notOuter, notInner, apartSides⟩ := nodup_node.mp leftNodup
  rw [indices_node] at notLeft apart
  simp only [List.mem_append, List.mem_cons, not_or] at notLeft apart
  obtain ⟨indexOuter, indexPivot, indexInner⟩ := notLeft
  have pivotRight : pivot ∉ indices right := apart pivot (.inr (.inl rfl))
  generalize link : node.left = leftLink at inLeft
  cases inLeft with
  | node pivotFound inOuter inInner pivotHeight =>
      rename_i pivotNode
      have member : index ∈ [index, pivot] := List.mem_cons_self
      have pivotMember : pivot ∈ [index, pivot] := List.mem_cons_of_mem _ List.mem_cons_self
      let first := nodes.modify index fun node => { node with left := pivotNode.right }
      let second := first.modify pivot fun node => { node with right := some index }
      have relinkedFirst : Relinked [index, pivot] nodes first := .modify nodes member fun _ => rfl
      have relinkedSecond : Relinked [index, pivot] first second :=
        .modify first pivotMember fun _ => rfl
      have relinked := relinkedFirst.trans relinkedSecond
      have aside : ∀ {side : AvlTree (Nat × K)}, index ∉ indices side → pivot ∉ indices side →
          ∀ other ∈ indices side, other ∉ [index, pivot] := by
        intro side notIndex notPivot other inSide here
        simp only [List.mem_cons, List.not_mem_nil, or_false] at here
        rcases here with rfl | rfl
        · exact notIndex inSide
        · exact notPivot inSide
      have low : Linked second index node.key inner right := by
        refine ⟨_, (modify_other indexPivot _).trans (modify_same found _), rfl, ?_, ?_⟩
        · exact inInner.relinked relinked (aside indexInner notInner)
        · exact inRight.relinked relinked (aside notRight pivotRight)
      have lowNodup : (indices (.node inner (index, node.key) right)).Nodup :=
        nodup_node.mpr ⟨innerNodup, rightNodup, indexInner, notRight,
          fun other inside => apart other (.inr (.inr inside))⟩
      obtain ⟨third, refreshes, thirdRelinked, shows⟩ := refreshHeight_shows low lowNodup (by omega)
      have pivotThird : third[pivot]? = some { pivotNode with right := some index } := by
        rw [thirdRelinked.outside pivot fun here => indexPivot (List.mem_singleton.mp here).symm]
        exact modify_same ((modify_other (Ne.symm indexPivot) _).trans pivotFound) _
      have whole : Linked third pivot pivotNode.key outer (.node inner (index, node.key) right) := by
        refine ⟨_, pivotThird, rfl, ?_, shows⟩
        refine (inOuter.relinked relinked (aside indexOuter notOuter)).relinked thirdRelinked ?_
        intro other inOuter here
        exact indexOuter (List.mem_singleton.mp here ▸ inOuter)
      have wholeNodup :
          (indices (.node outer (pivot, pivotNode.key)
            (.node inner (index, node.key) right))).Nodup := by
        refine nodup_node.mpr ⟨outerNodup, lowNodup, notOuter, ?_, fun other inOuter => ?_⟩
        · rw [indices_node]
          simp only [List.mem_append, List.mem_cons, not_or]
          exact ⟨notInner, Ne.symm indexPivot, pivotRight⟩
        · rw [indices_node]
          simp only [List.mem_append, List.mem_cons, not_or]
          refine ⟨apartSides other inOuter, ?_, apart other (.inl inOuter)⟩
          rintro rfl
          exact indexOuter inOuter
      obtain ⟨fourth, again, fourthRelinked, shows⟩ := refreshHeight_shows whole wholeNodup (by
        rw [AvlTree.height]
        omega)
      refine ⟨fourth, ?_, ?_, shows⟩
      · simp only [rotateRight, found, link, pivotFound, Option.bind_eq_bind, Option.bind_some]
        rw [show refreshHeight _ index = some third from refreshes, Option.bind_some, again]
        rfl
      · refine (relinked.trans (thirdRelinked.widen ?_)).trans (fourthRelinked.widen ?_)
        · intro other here
          exact List.mem_singleton.mp here ▸ member
        · intro other here
          exact List.mem_singleton.mp here ▸ pivotMember

theorem rotateLeft_shows
    (linked : Linked nodes index key left (.node inner (pivot, pivotKey) outer))
    (nodup : (indices (.node left (index, key) (.node inner (pivot, pivotKey) outer))).Nodup)
    (fits : 2 + max (1 + max left.height inner.height) outer.height < 2 ^ 8) :
    ∃ after, rotateLeft nodes index = some (pivot, after) ∧ Relinked [index, pivot] nodes after ∧
      Shows after (some pivot) (.node (.node left (index, key) inner) (pivot, pivotKey) outer) := by
  obtain ⟨node, found, rfl, inLeft, inRight⟩ := linked
  obtain ⟨leftNodup, rightNodup, notLeft, notRight, apart⟩ := nodup_node.mp nodup
  obtain ⟨innerNodup, outerNodup, notInner, notOuter, apartSides⟩ := nodup_node.mp rightNodup
  rw [indices_node] at notRight apart
  simp only [List.mem_append, List.mem_cons, not_or] at notRight apart
  obtain ⟨indexInner, indexPivot, indexOuter⟩ := notRight
  have pivotLeft : pivot ∉ indices left := fun inside => (apart pivot inside).2.1 rfl
  generalize link : node.right = rightLink at inRight
  cases inRight with
  | node pivotFound inInner inOuter pivotHeight =>
      rename_i pivotNode
      have member : index ∈ [index, pivot] := List.mem_cons_self
      have pivotMember : pivot ∈ [index, pivot] := List.mem_cons_of_mem _ List.mem_cons_self
      let first := nodes.modify index fun node => { node with right := pivotNode.left }
      let second := first.modify pivot fun node => { node with left := some index }
      have relinkedFirst : Relinked [index, pivot] nodes first := .modify nodes member fun _ => rfl
      have relinkedSecond : Relinked [index, pivot] first second :=
        .modify first pivotMember fun _ => rfl
      have relinked := relinkedFirst.trans relinkedSecond
      have aside : ∀ {side : AvlTree (Nat × K)}, index ∉ indices side → pivot ∉ indices side →
          ∀ other ∈ indices side, other ∉ [index, pivot] := by
        intro side notIndex notPivot other inSide here
        simp only [List.mem_cons, List.not_mem_nil, or_false] at here
        rcases here with rfl | rfl
        · exact notIndex inSide
        · exact notPivot inSide
      have low : Linked second index node.key left inner := by
        refine ⟨_, (modify_other indexPivot _).trans (modify_same found _), rfl, ?_, ?_⟩
        · exact inLeft.relinked relinked (aside notLeft pivotLeft)
        · exact inInner.relinked relinked (aside indexInner notInner)
      have lowNodup : (indices (.node left (index, node.key) inner)).Nodup :=
        nodup_node.mpr ⟨leftNodup, innerNodup, notLeft, indexInner,
          fun other inside => (apart other inside).1⟩
      obtain ⟨third, refreshes, thirdRelinked, shows⟩ := refreshHeight_shows low lowNodup (by omega)
      have pivotThird : third[pivot]? = some { pivotNode with left := some index } := by
        rw [thirdRelinked.outside pivot fun here => indexPivot (List.mem_singleton.mp here).symm]
        exact modify_same ((modify_other (Ne.symm indexPivot) _).trans pivotFound) _
      have whole : Linked third pivot pivotNode.key (.node left (index, node.key) inner) outer := by
        refine ⟨_, pivotThird, rfl, shows, ?_⟩
        refine (inOuter.relinked relinked (aside indexOuter notOuter)).relinked thirdRelinked ?_
        intro other inOuter here
        exact indexOuter (List.mem_singleton.mp here ▸ inOuter)
      have wholeNodup :
          (indices (.node (.node left (index, node.key) inner) (pivot, pivotNode.key) outer)).Nodup := by
        refine nodup_node.mpr ⟨lowNodup, outerNodup, ?_, notOuter, fun other inLow => ?_⟩
        · rw [indices_node]
          simp only [List.mem_append, List.mem_cons, not_or]
          exact ⟨pivotLeft, Ne.symm indexPivot, notInner⟩
        · rw [indices_node] at inLow
          simp only [List.mem_append, List.mem_cons] at inLow
          rcases inLow with inside | rfl | inside
          · exact (apart other inside).2.2
          · exact indexOuter
          · exact apartSides other inside
      obtain ⟨fourth, again, fourthRelinked, shows⟩ := refreshHeight_shows whole wholeNodup (by
        rw [AvlTree.height]
        omega)
      refine ⟨fourth, ?_, ?_, shows⟩
      · simp only [rotateLeft, found, link, pivotFound, Option.bind_eq_bind, Option.bind_some]
        rw [show refreshHeight _ index = some third from refreshes, Option.bind_some, again]
        rfl
      · refine (relinked.trans (thirdRelinked.widen ?_)).trans (fourthRelinked.widen ?_)
        · intro other here
          exact List.mem_singleton.mp here ▸ member
        · intro other here
          exact List.mem_singleton.mp here ▸ pivotMember

/-! ## Rebalancing -/

theorem Shows.inv {link : Option Nat} (shows : Shows nodes link (.node left (index, key) right)) :
    link = some index ∧ Linked nodes index key left right := by
  cases shows with
  | node found inLeft inRight height => exact ⟨rfl, _, found, rfl, inLeft, inRight⟩

/-- After the first of two rotations its root is linked where the subtree was. -/
theorem Linked.relinkLeft {below : AvlTree (Nat × K)} (linked : Linked nodes index key left right)
    (relinked : Relinked inside nodes after) (notInside : index ∉ inside)
    (apart : ∀ other ∈ indices right, other ∉ inside) (shows : Shows after (some pivot) below)
    (notBelow : index ∉ indices below) (notRight : index ∉ indices right) :
    Linked (after.modify index fun node => { node with left := some pivot }) index key below right := by
  obtain ⟨node, found, same, -, inRight⟩ := linked
  have modified : Relinked [index] after
      (after.modify index fun node => { node with left := some pivot }) :=
    .modify after List.mem_cons_self fun _ => rfl
  refine ⟨_, modify_same ((relinked.outside index notInside).trans found) _, same, ?_, ?_⟩
  · refine shows.relinked modified fun other member here => ?_
    exact notBelow (List.mem_singleton.mp here ▸ member)
  · refine (inRight.relinked relinked apart).relinked modified fun other member here => ?_
    exact notRight (List.mem_singleton.mp here ▸ member)

theorem Linked.relinkRight {below : AvlTree (Nat × K)} (linked : Linked nodes index key left right)
    (relinked : Relinked inside nodes after) (notInside : index ∉ inside)
    (apart : ∀ other ∈ indices left, other ∉ inside) (shows : Shows after (some pivot) below)
    (notBelow : index ∉ indices below) (notLeft : index ∉ indices left) :
    Linked (after.modify index fun node => { node with right := some pivot }) index key left below := by
  obtain ⟨node, found, same, inLeft, -⟩ := linked
  have modified : Relinked [index] after
      (after.modify index fun node => { node with right := some pivot }) :=
    .modify after List.mem_cons_self fun _ => rfl
  refine ⟨_, modify_same ((relinked.outside index notInside).trans found) _, same, ?_, ?_⟩
  · refine (inLeft.relinked relinked apart).relinked modified fun other member here => ?_
    exact notLeft (List.mem_singleton.mp here ▸ member)
  · refine shows.relinked modified fun other member here => ?_
    exact notBelow (List.mem_singleton.mp here ▸ member)

theorem indices_rotateLeft (tree : AvlTree (Nat × K)) : indices tree.rotateLeft = indices tree := by
  rw [indices, AvlTree.items_rotateLeft, indices]

theorem indices_rotateRight (tree : AvlTree (Nat × K)) : indices tree.rotateRight = indices tree := by
  rw [indices, AvlTree.items_rotateRight, indices]

theorem straightenLeft_shows
    (linked : Linked nodes index key (.node outer (pivot, pivotKey) inner) right)
    (nodup : (indices (.node (.node outer (pivot, pivotKey) inner) (index, key) right)).Nodup)
    (fits : 3 + max outer.height inner.height < 2 ^ 8) :
    ∃ after, straightenLeft nodes index = some after ∧
      Relinked (index :: indices (.node outer (pivot, pivotKey) inner)) nodes after ∧
      Linked after index key (if (AvlTree.node outer (pivot, pivotKey) inner).LeansRight then
        (AvlTree.node outer (pivot, pivotKey) inner).rotateLeft
        else .node outer (pivot, pivotKey) inner) right := by
  obtain ⟨node, found, rfl, inLeft, inRight⟩ := linked
  obtain ⟨leftNodup, rightNodup, notLeft, notRight, apart⟩ := nodup_node.mp nodup
  obtain ⟨link, below⟩ := inLeft.inv
  unfold straightenLeft
  simp only [found, link, below.balanceFactor_eq, Option.bind_eq_bind, Option.bind_some]
  by_cases leans : outer.height < inner.height
  · rw [if_pos (by omega), if_pos ((AvlTree.leansRight_node ..).mpr leans)]
    cases inner with
    | leaf => exact absurd leans (Nat.not_lt_zero _)
    | node near middle far =>
        obtain ⟨middle, middleKey⟩ := middle
        obtain ⟨rotated, rotates, relinked, shows⟩ := rotateLeft_shows below leftNodup (by
          rw [AvlTree.height] at fits
          omega)
        have inside : ∀ other ∈ [pivot, middle],
            other ∈ indices (.node outer (pivot, pivotKey) (.node near (middle, middleKey) far)) := by
          intro other member
          simp only [List.mem_cons, List.not_mem_nil, or_false] at member
          rcases member with rfl | rfl <;> simp [indices_node]
        have linked : Linked nodes index node.key _ right := ⟨node, found, rfl, inLeft, inRight⟩
        refine ⟨_, ?_, ?_, linked.relinkLeft relinked (fun member => notLeft (inside index member))
          (fun other member here => apart other (inside other here) member) shows ?_ notRight⟩
        · rw [rotates]
          rfl
        · refine (relinked.widen fun other member => ?_).trans (.modify rotated List.mem_cons_self
            fun _ => rfl)
          exact List.mem_cons_of_mem _ (inside other member)
        · intro member
          exact notLeft ((indices_rotateLeft _).symm ▸ member)
  · rw [if_neg (by omega), if_neg (fun leansRight => leans ((AvlTree.leansRight_node ..).mp leansRight))]
    exact ⟨nodes, rfl, .refl _ _, node, found, rfl, inLeft, inRight⟩

theorem straightenRight_shows
    (linked : Linked nodes index key left (.node inner (pivot, pivotKey) outer))
    (nodup : (indices (.node left (index, key) (.node inner (pivot, pivotKey) outer))).Nodup)
    (fits : 3 + max inner.height outer.height < 2 ^ 8) :
    ∃ after, straightenRight nodes index = some after ∧
      Relinked (index :: indices (.node inner (pivot, pivotKey) outer)) nodes after ∧
      Linked after index key left (if (AvlTree.node inner (pivot, pivotKey) outer).LeansLeft then
        (AvlTree.node inner (pivot, pivotKey) outer).rotateRight
        else .node inner (pivot, pivotKey) outer) := by
  obtain ⟨node, found, rfl, inLeft, inRight⟩ := linked
  obtain ⟨leftNodup, rightNodup, notLeft, notRight, apart⟩ := nodup_node.mp nodup
  obtain ⟨link, below⟩ := inRight.inv
  unfold straightenRight
  simp only [found, link, below.balanceFactor_eq, Option.bind_eq_bind, Option.bind_some]
  by_cases leans : outer.height < inner.height
  · rw [if_pos (by omega), if_pos ((AvlTree.leansLeft_node ..).mpr leans)]
    cases inner with
    | leaf => exact absurd leans (Nat.not_lt_zero _)
    | node near middle far =>
        obtain ⟨middle, middleKey⟩ := middle
        obtain ⟨rotated, rotates, relinked, shows⟩ := rotateRight_shows below rightNodup (by
          rw [AvlTree.height] at fits
          omega)
        have inside : ∀ other ∈ [pivot, middle],
            other ∈ indices (.node (.node near (middle, middleKey) far) (pivot, pivotKey) outer) := by
          intro other member
          simp only [List.mem_cons, List.not_mem_nil, or_false] at member
          rcases member with rfl | rfl <;> simp [indices_node]
        have linked : Linked nodes index node.key left _ := ⟨node, found, rfl, inLeft, inRight⟩
        refine ⟨_, ?_, ?_, linked.relinkRight relinked (fun member => notRight (inside index member))
          (fun other member here => apart other member (inside other here)) shows ?_ notLeft⟩
        · rw [rotates]
          rfl
        · refine (relinked.widen fun other member => ?_).trans (.modify rotated List.mem_cons_self
            fun _ => rfl)
          exact List.mem_cons_of_mem _ (inside other member)
        · intro member
          exact notRight ((indices_rotateRight _).symm ▸ member)
  · rw [if_neg (by omega), if_neg (fun leansLeft => leans ((AvlTree.leansLeft_node ..).mp leansLeft))]
    exact ⟨nodes, rfl, .refl _ _, node, found, rfl, inLeft, inRight⟩

/-- `rotateRight` where there is a left subtree. -/
theorem rotateRight_tree (linked : Linked nodes index key left right) (present : left ≠ .leaf)
    (nodup : (indices (.node left (index, key) right)).Nodup)
    (fits : 3 + max left.height right.height < 2 ^ 8) :
    ∃ root after, rotateRight nodes index = some (root, after) ∧
      Relinked (indices (.node left (index, key) right)) nodes after ∧
      Shows after (some root) (AvlTree.node left (index, key) right).rotateRight := by
  cases left with
  | leaf => exact absurd rfl present
  | node outer pivot inner =>
      obtain ⟨pivot, pivotKey⟩ := pivot
      rw [AvlTree.height] at fits
      obtain ⟨after, rotates, relinked, shows⟩ := rotateRight_shows linked nodup (by omega)
      refine ⟨pivot, after, rotates, relinked.widen fun other member => ?_, shows⟩
      simp only [List.mem_cons, List.not_mem_nil, or_false] at member
      rcases member with rfl | rfl <;> simp [indices_node]

theorem rotateLeft_tree (linked : Linked nodes index key left right) (present : right ≠ .leaf)
    (nodup : (indices (.node left (index, key) right)).Nodup)
    (fits : 3 + max left.height right.height < 2 ^ 8) :
    ∃ root after, rotateLeft nodes index = some (root, after) ∧
      Relinked (indices (.node left (index, key) right)) nodes after ∧
      Shows after (some root) (AvlTree.node left (index, key) right).rotateLeft := by
  cases right with
  | leaf => exact absurd rfl present
  | node inner pivot outer =>
      obtain ⟨pivot, pivotKey⟩ := pivot
      rw [AvlTree.height] at fits
      obtain ⟨after, rotates, relinked, shows⟩ := rotateLeft_shows linked nodup (by omega)
      refine ⟨pivot, after, rotates, relinked.widen fun other member => ?_, shows⟩
      simp only [List.mem_cons, List.not_mem_nil, or_false] at member
      rcases member with rfl | rfl <;> simp [indices_node]

theorem rebalance_shows (linked : Linked nodes index key left right)
    (nodup : (indices (.node left (index, key) right)).Nodup)
    (fits : 4 + max left.height right.height < 2 ^ 8) :
    ∃ root after, rebalance nodes index = some (root, after) ∧
      Relinked (indices (.node left (index, key) right)) nodes after ∧
      Shows after (some root) (AvlTree.rebalance left (index, key) right) := by
  have here : index ∈ indices (.node left (index, key) right) := by simp [indices_node]
  have inLeft : ∀ other ∈ index :: indices left, other ∈ indices (.node left (index, key) right) := by
    intro other member
    rcases List.mem_cons.mp member with rfl | member
    · exact here
    · simp [indices_node, member]
  have inRight : ∀ other ∈ index :: indices right, other ∈ indices (.node left (index, key) right) := by
    intro other member
    rcases List.mem_cons.mp member with rfl | member
    · exact here
    · simp [indices_node, member]
  obtain ⟨refreshed, refreshes, refreshedOnly, shows⟩ := refreshHeight_shows linked nodup (by omega)
  have first : Relinked (indices (.node left (index, key) right)) nodes refreshed := by
    refine refreshedOnly.widen fun other member => ?_
    rw [List.mem_singleton.mp member]
    exact here
  obtain ⟨-, linked⟩ := shows.inv
  unfold rebalance AvlTree.rebalance
  simp only [refreshes, linked.balanceFactor_eq, Option.bind_eq_bind, Option.bind_some]
  by_cases heavyLeft : right.height + 1 < left.height
  · rw [if_pos (by omega), if_pos heavyLeft]
    cases left with
    | leaf => exact absurd heavyLeft (Nat.not_lt_zero _)
    | node outer pivot inner =>
        obtain ⟨pivot, pivotKey⟩ := pivot
        have low := AvlTree.height_rotateLeft_le (.node outer (pivot, pivotKey) inner)
        have whole : (AvlTree.node outer (pivot, pivotKey) inner).height =
            1 + max outer.height inner.height :=
          rfl
        obtain ⟨straight, straightens, relinked, linked⟩ := straightenLeft_shows linked nodup (by omega)
        have second := first.trans (relinked.widen inLeft)
        rw [straightens, Option.bind_some]
        have sameItems : indices (.node (if (AvlTree.node outer (pivot, pivotKey) inner).LeansRight then
            (AvlTree.node outer (pivot, pivotKey) inner).rotateLeft
            else .node outer (pivot, pivotKey) inner) (index, key) right) =
            indices (.node (.node outer (pivot, pivotKey) inner) (index, key) right) := by
          rw [indices_node, indices_node]
          split
          · rw [indices_rotateLeft]
          · rfl
        obtain ⟨root, after, rotates, third, shows⟩ := rotateRight_tree linked
          (by
            split
            · cases inner <;> exact fun same => nomatch same
            · exact fun same => nomatch same)
          (by rw [sameItems]; exact nodup)
          (by
            split
            · omega
            · omega)
        rw [sameItems] at third
        exact ⟨root, after, rotates, second.trans third, shows⟩
  · rw [if_neg (by omega), if_neg heavyLeft]
    by_cases heavyRight : left.height + 1 < right.height
    · rw [if_pos (by omega), if_pos heavyRight]
      cases right with
      | leaf => exact absurd heavyRight (Nat.not_lt_zero _)
      | node inner pivot outer =>
          obtain ⟨pivot, pivotKey⟩ := pivot
          have low := AvlTree.height_rotateRight_le (.node inner (pivot, pivotKey) outer)
          have whole : (AvlTree.node inner (pivot, pivotKey) outer).height =
              1 + max inner.height outer.height := rfl
          obtain ⟨straight, straightens, relinked, linked⟩ :=
            straightenRight_shows linked nodup (by omega)
          have second := first.trans (relinked.widen inRight)
          rw [straightens, Option.bind_some]
          have sameItems : indices (.node left (index, key)
              (if (AvlTree.node inner (pivot, pivotKey) outer).LeansLeft then
                (AvlTree.node inner (pivot, pivotKey) outer).rotateRight
                else .node inner (pivot, pivotKey) outer)) =
              indices (.node left (index, key) (.node inner (pivot, pivotKey) outer)) := by
            rw [indices_node, indices_node]
            split
            · rw [indices_rotateRight]
            · rfl
          obtain ⟨root, after, rotates, third, shows⟩ := rotateLeft_tree linked
            (by
              split
              · cases inner <;> exact fun same => nomatch same
              · exact fun same => nomatch same)
            (by rw [sameItems]; exact nodup)
            (by
              split
              · omega
              · omega)
          rw [sameItems] at third
          exact ⟨root, after, rotates, second.trans third, shows⟩
    · rw [if_neg (by omega), if_neg heavyRight]
      exact ⟨index, refreshed, rfl, first, shows⟩

end Shows

/-! ## Insertion and lookup -/

section Insertion

variable {nodes : Arena K V} {root : Option Nat} {fresh fuel : Nat} {key : K} {tree : AvlTree (Nat × K)}

theorem indices_insert (fresh : Nat) (key : K) (tree : AvlTree (Nat × K)) :
    (indices (tree.insert Prod.snd (fresh, key))).Perm (fresh :: indices tree) :=
  (AvlTree.items_insert_perm Prod.snd (fresh, key) tree).map Prod.fst

/-- The recursion links the fresh node where insertion puts it. -/
theorem insertBalanced_shows (shows : Shows nodes root tree) (nodup : (indices tree).Nodup)
    (balanced : tree.Balanced) (found : nodes[fresh]? = some node)
    (bare : node.left = none ∧ node.right = none ∧ node.height = 1) (notIn : fresh ∉ indices tree)
    (absent : ∀ item ∈ tree.items, item.2 ≠ node.key) (enough : tree.height < fuel)
    (fits : 4 + tree.height < 2 ^ 8) :
    ∃ top after, insertBalanced fresh fuel nodes root = some (top, after) ∧
      Relinked (fresh :: indices tree) nodes after ∧
      Shows after (some top) (tree.insert Prod.snd (fresh, node.key)) := by
  induction tree generalizing root fuel with
  | leaf =>
      cases shows
      obtain ⟨fuel, rfl⟩ := Nat.exists_eq_succ_of_ne_zero (Nat.ne_of_gt enough)
      obtain ⟨left, right, height⟩ := bare
      refine ⟨fresh, nodes, rfl, .refl _ _, .node found ?_ ?_ height⟩
      · rw [left]
        exact .leaf
      · rw [right]
        exact .leaf
  | node left item right ihLeft ihRight =>
      obtain ⟨index, indexKey⟩ := item
      obtain ⟨rfl, linked⟩ := shows.inv
      obtain ⟨here, hereFound, rfl, inLeft, inRight⟩ := linked
      have linked : Linked nodes index here.key left right := ⟨here, hereFound, rfl, inLeft, inRight⟩
      obtain ⟨leftNodup, rightNodup, notLeft, notRight, apart⟩ := nodup_node.mp nodup
      obtain ⟨leftBalanced, rightBalanced, leftLow, rightLow⟩ := balanced
      rw [indices_node] at notIn
      simp only [List.mem_append, List.mem_cons, not_or] at notIn
      obtain ⟨freshLeft, freshHere, freshRight⟩ := notIn
      obtain ⟨fuel, rfl⟩ := Nat.exists_eq_succ_of_ne_zero (Nat.ne_of_gt (Nat.zero_lt_of_lt enough))
      rw [AvlTree.height] at enough fits
      have deepLeft : left.height < fuel := by omega
      have deepRight : right.height < fuel := by omega
      have other : here.key ≠ node.key :=
        absent (index, here.key) (List.mem_append_right _ List.mem_cons_self)
      have leftGrows := AvlTree.Balanced.insert Prod.snd (fresh, node.key) leftBalanced
      have rightGrows := AvlTree.Balanced.insert Prod.snd (fresh, node.key) rightBalanced
      have inside : ∀ place, place ∈ fresh :: indices left ∨ place ∈ fresh :: indices right ∨
          place = index →
          place ∈ fresh :: indices (.node left (index, here.key) right) := by
        intro place member
        rw [indices_node]
        simp only [List.mem_cons, List.mem_append] at member ⊢
        tauto
      unfold insertBalanced AvlTree.insert
      simp only [hereFound, found, Option.bind_eq_bind, Option.bind_some]
      rcases lt_or_gt_of_ne other.symm with less | greater
      · rw [compare_lt_iff_lt.mpr less]
        obtain ⟨child, grown, inserts, relinked, shows⟩ := ihLeft inLeft leftNodup leftBalanced freshLeft
          (fun item member => absent item (List.mem_append_left _ member)) deepLeft (by omega)
        have perm := indices_insert fresh node.key left
        have notGrown : index ∉ indices (left.insert Prod.snd (fresh, node.key)) := by
          intro member
          rcases List.mem_cons.mp (perm.mem_iff.mp member) with same | inLeft
          · exact freshHere same.symm
          · exact notLeft inLeft
        have relinks : Linked (grown.modify index fun node => { node with left := some child }) index
            here.key (left.insert Prod.snd (fresh, node.key)) right := by
          refine linked.relinkLeft relinked (fun member => notGrown (perm.mem_iff.mpr member))
            (fun place inRight member => ?_) shows notGrown notRight
          rcases List.mem_cons.mp member with rfl | inLeft
          · exact freshRight inRight
          · exact apart place inLeft inRight
        have relinkedRoot : Relinked (fresh :: indices (.node left (index, here.key) right)) grown
            (grown.modify index fun node => { node with left := some child }) :=
          .modify grown (inside index (.inr (.inr rfl))) fun _ => rfl
        have grownNodup : (indices (.node (left.insert Prod.snd (fresh, node.key))
            (index, here.key) right)).Nodup := by
          refine nodup_node.mpr ⟨perm.nodup_iff.mpr (List.nodup_cons.mpr ⟨freshLeft, leftNodup⟩),
            rightNodup, notGrown, notRight, fun place member inRight => ?_⟩
          rcases List.mem_cons.mp (perm.mem_iff.mp member) with rfl | inLeft
          · exact freshRight inRight
          · exact apart place inLeft inRight
        obtain ⟨top, after, rebalances, rest, shows⟩ := rebalance_shows relinks grownNodup (by omega)
        refine ⟨top, after, ?_, ?_, ?_⟩
        · rw [inserts]
          exact rebalances
        · refine ((relinked.widen fun place member => inside place (.inl member)).trans
            relinkedRoot).trans
            (rest.widen fun place member => ?_)
          rw [indices_node] at member
          rcases List.mem_append.mp member with inGrown | beyond
          · exact inside place (.inl (perm.mem_iff.mp inGrown))
          · rcases List.mem_cons.mp beyond with same | inRight
            · exact inside place (.inr (.inr same))
            · exact inside place (.inr (.inl (List.mem_cons_of_mem _ inRight)))
        · rw [if_pos less]
          exact shows
      · rw [compare_gt_iff_gt.mpr greater]
        obtain ⟨child, grown, inserts, relinked, shows⟩ := ihRight inRight rightNodup rightBalanced
          freshRight (fun item member =>
            absent item (List.mem_append_right _ (List.mem_cons_of_mem _ member)))
          deepRight (by omega)
        have perm := indices_insert fresh node.key right
        have notGrown : index ∉ indices (right.insert Prod.snd (fresh, node.key)) := by
          intro member
          rcases List.mem_cons.mp (perm.mem_iff.mp member) with same | inRight
          · exact freshHere same.symm
          · exact notRight inRight
        have relinks : Linked (grown.modify index fun node => { node with right := some child }) index
            here.key left (right.insert Prod.snd (fresh, node.key)) := by
          refine linked.relinkRight relinked (fun member => notGrown (perm.mem_iff.mpr member))
            (fun place inLeft member => ?_) shows notGrown notLeft
          rcases List.mem_cons.mp member with rfl | inRight
          · exact freshLeft inLeft
          · exact apart place inLeft inRight
        have relinkedRoot : Relinked (fresh :: indices (.node left (index, here.key) right)) grown
            (grown.modify index fun node => { node with right := some child }) :=
          .modify grown (inside index (.inr (.inr rfl))) fun _ => rfl
        have grownNodup : (indices (.node left (index, here.key)
            (right.insert Prod.snd (fresh, node.key)))).Nodup := by
          refine nodup_node.mpr ⟨leftNodup,
            perm.nodup_iff.mpr (List.nodup_cons.mpr ⟨freshRight, rightNodup⟩),
            notLeft, notGrown, fun place inLeft member => ?_⟩
          rcases List.mem_cons.mp (perm.mem_iff.mp member) with rfl | inRight
          · exact freshLeft inLeft
          · exact apart place inLeft inRight
        obtain ⟨top, after, rebalances, rest, shows⟩ := rebalance_shows relinks grownNodup (by omega)
        refine ⟨top, after, ?_, ?_, ?_⟩
        · rw [inserts]
          exact rebalances
        · refine ((relinked.widen fun place member => inside place (.inr (.inl member))).trans
            relinkedRoot).trans
            (rest.widen fun place member => ?_)
          rw [indices_node] at member
          rcases List.mem_append.mp member with inLeft | beyond
          · exact inside place (.inl (List.mem_cons_of_mem _ inLeft))
          · rcases List.mem_cons.mp beyond with same | inGrown
            · exact inside place (.inr (.inr same))
            · exact inside place (.inr (.inl (perm.mem_iff.mp inGrown)))
        · rw [if_neg (not_lt_of_gt greater)]
          exact shows

/-- The descent ends at the node of the key, or finds that there is none. -/
theorem descend_shows (shows : Shows nodes root tree) (ordered : tree.Ordered Prod.snd)
    (enough : tree.height < fuel) :
    ∃ result, descend nodes key fuel root = some result ∧
      (∀ index, result = some index → (index, key) ∈ tree.items) ∧
      (result = none → ∀ item ∈ tree.items, item.2 ≠ key) := by
  induction tree generalizing root fuel with
  | leaf =>
      cases shows
      obtain ⟨fuel, rfl⟩ := Nat.exists_eq_succ_of_ne_zero (Nat.ne_of_gt enough)
      refine ⟨none, rfl, fun _ same => ?_, fun _ item member => ?_⟩
      · cases same
      · cases member
  | node left item right ihLeft ihRight =>
      obtain ⟨index, indexKey⟩ := item
      obtain ⟨rfl, here, found, rfl, inLeft, inRight⟩ := shows.inv
      obtain ⟨leftOrdered, rest, across⟩ := List.pairwise_append.mp ordered
      obtain ⟨below, rightOrdered⟩ := List.pairwise_cons.mp rest
      obtain ⟨fuel, rfl⟩ := Nat.exists_eq_succ_of_ne_zero (Nat.ne_of_gt (Nat.zero_lt_of_lt enough))
      rw [AvlTree.height] at enough
      have deepLeft : left.height < fuel := by omega
      have deepRight : right.height < fuel := by omega
      unfold descend
      simp only [found, Option.bind_eq_bind, Option.bind_some]
      rcases lt_trichotomy key here.key with less | rfl | greater
      · rw [compare_lt_iff_lt.mpr less]
        obtain ⟨result, ends, finds, misses⟩ := ihLeft inLeft leftOrdered deepLeft
        refine ⟨result, ends, fun place same => List.mem_append_left _ (finds place same),
          fun none item member => ?_⟩
        rcases List.mem_append.mp member with inLeft | beyond
        · exact misses none item inLeft
        · rcases List.mem_cons.mp beyond with rfl | far
          · exact ne_of_gt less
          · exact ne_of_gt (less.trans (below item far))
      · rw [compare_eq_iff_eq.mpr rfl]
        refine ⟨some index, rfl, fun place same => ?_, fun missing => ?_⟩
        · cases same
          exact List.mem_append_right _ List.mem_cons_self
        · cases missing
      · rw [compare_gt_iff_gt.mpr greater]
        obtain ⟨result, ends, finds, misses⟩ := ihRight inRight rightOrdered deepRight
        refine ⟨result, ends, fun place same =>
          List.mem_append_right _ (List.mem_cons_of_mem _ (finds place same)),
            fun none item member => ?_⟩
        rcases List.mem_append.mp member with near | beyond
        · exact ne_of_lt ((across item near _ List.mem_cons_self).trans greater)
        · rcases List.mem_cons.mp beyond with rfl | far
          · exact ne_of_lt greater
          · exact misses none item far

end Insertion

/-! ## Maps -/

/-- The nodes of a map make up one balanced search tree. -/
structure Maintained (map : OrderedMap K V) (tree : AvlTree (Nat × K)) : Prop where
  shows : Shows map.nodes map.root tree
  nodup : (indices tree).Nodup
  all : ∀ index, index ∈ indices tree ↔ index < map.nodes.length
  ordered : tree.Ordered Prod.snd
  balanced : tree.Balanced
  bounded : map.nodes.length ≤ noIndex

/-- The nodes hold what the map should. -/
def Holds (self : OrderedMap K V) (contents : K → Option V) : Prop :=
  ∀ key value, contents key = some value ↔ ∃ index : Nat, self.nodes[index]?.map MapNode.entry =
    some (key, value)

section Maps

variable {self after : OrderedMap K V} {tree : AvlTree (Nat × K)} {contents : K → Option V} {key : K}

omit [LinearOrder K] in
/-- An item names the key of its node. -/
theorem Shows.item {nodes : Arena K V} {root : Option Nat} (shows : Shows nodes root tree)
    (member : (index, key) ∈ tree.items) : ∃ node, nodes[index]? = some node ∧ node.key = key := by
  induction shows with
  | leaf => cases member
  | node found inLeft inRight height ihLeft ihRight =>
      rcases List.mem_append.mp member with near | beyond
      · exact ihLeft near
      · rcases List.mem_cons.mp beyond with same | far
        · cases same
          exact ⟨_, found, rfl⟩
        · exact ihRight far

namespace Maintained

theorem empty (capacity : Nat) : Maintained (⟨[], capacity, none⟩ : OrderedMap K V) .leaf where
  shows := .leaf
  nodup := List.nodup_nil
  all index := by simp [indices, AvlTree.items]
  ordered := List.Pairwise.nil
  balanced := trivial
  bounded := Nat.zero_le _

theorem size_eq (maintained : Maintained self tree) : tree.size = self.nodes.length := by
  have perm : (indices tree).Perm (List.range self.nodes.length) := by
    refine (List.perm_ext_iff_of_nodup maintained.nodup List.nodup_range).mpr fun index => ?_
    rw [maintained.all, List.mem_range]
  have length := perm.length_eq
  rw [indices, List.length_map, AvlTree.items_length, List.length_range] at length
  exact length

/-- Heights fit in their byte by far. -/
theorem height_lt (maintained : Maintained self tree) : tree.height < 66 := by
  by_contra high
  have big := maintained.balanced.size_bound 33 (Nat.le_of_not_lt high)
  have small := maintained.bounded
  rw [maintained.size_eq] at big
  rw [noIndex] at small
  omega

theorem enough (maintained : Maintained self tree) : tree.height < rounds self.nodes := by
  have low := tree.height_le_size
  rw [maintained.size_eq] at low
  exact Nat.lt_succ_of_le low

/-- Every node is in the tree. -/
theorem item (maintained : Maintained self tree) (found : self.nodes[index]? = some node) :
    (index, node.key) ∈ tree.items := by
  obtain ⟨inside, -⟩ := List.getElem?_eq_some_iff.mp found
  obtain ⟨⟨place, named⟩, member, same⟩ := List.mem_map.mp ((maintained.all index).mpr inside)
  obtain rfl : place = index := same
  obtain ⟨other, otherFound, rfl⟩ := maintained.shows.item member
  cases found.symm.trans otherFound
  exact member

theorem key_inj (maintained : Maintained self tree) {other : Nat} (here : (index, key) ∈ tree.items)
    (there : (other, key) ∈ tree.items) : index = other := by
  have apart : (tree.items.map Prod.snd).Nodup :=
    List.pairwise_map.mpr (maintained.ordered.imp fun less => ne_of_lt less)
  exact congrArg Prod.fst (List.inj_on_of_nodup_map apart here there rfl)

/-- Looking a key up ends, with its node if it has one. -/
theorem descend_eq (maintained : Maintained self tree) (key : K) :
    ∃ result, descend self.nodes key (rounds self.nodes) self.root = some result ∧
      (∀ index, result = some index → (index, key) ∈ tree.items) ∧
      (result = none → ∀ item ∈ tree.items, item.2 ≠ key) :=
  descend_shows maintained.shows maintained.ordered maintained.enough

/-- Lookup ends and finds what the map holds. -/
theorem get_eq (maintained : Maintained self tree) (holds : Holds self contents) (key : K) :
    self.get key = some (contents key) := by
  obtain ⟨result, ends, finds, misses⟩ := maintained.descend_eq key
  unfold get
  simp only [ends, Option.bind_eq_bind, Option.bind_some]
  cases result with
  | none =>
      cases missing : contents key with
      | none => rfl
      | some value =>
          obtain ⟨index, entry⟩ := (holds key value).mp missing
          obtain ⟨node, found, same⟩ := Option.map_eq_some_iff.mp entry
          cases same
          exact absurd rfl (misses rfl _ (maintained.item found))
  | some index =>
      obtain ⟨node, found, rfl⟩ := maintained.shows.item (finds index rfl)
      have held : contents node.key = some node.value :=
        (holds node.key node.value).mpr ⟨index, by rw [found]; rfl⟩
      rw [held]
      simp only [found, Option.bind_some]
      rfl

/-- Overwriting a value. -/
theorem overwrite (maintained : Maintained self tree) (here : (index, key) ∈ tree.items) (value : V) :
    Maintained { self with nodes := self.nodes.modify index fun node => { node with value } } tree := by
  have length : (self.nodes.modify index fun node => { node with value }).length = self.nodes.length :=
    List.length_modify ..
  refine ⟨?_, maintained.nodup, fun other => ?_, maintained.ordered, maintained.balanced, ?_⟩
  · have kept : ∀ {root : Option Nat} {tree : AvlTree (Nat × K)}, Shows self.nodes root tree →
        Shows (self.nodes.modify index fun node => { node with value }) root tree := by
      intro root tree shows
      induction shows with
      | leaf => exact .leaf
      | node found inLeft inRight height ihLeft ihRight =>
          rename_i place node left right
          by_cases same : place = index
          · subst same
            have shows := Shows.node (modify_same found fun node => { node with value }) ihLeft ihRight
              height
            exact shows
          · exact .node ((modify_other same _).trans found) ihLeft ihRight height
    exact kept maintained.shows
  · exact (maintained.all other).trans (by rw [length])
  · rw [length]
    exact maintained.bounded

theorem overwrite_holds (maintained : Maintained self tree) (holds : Holds self contents)
    (here : (index, key) ∈ tree.items) (value : V) :
    Holds { self with nodes := self.nodes.modify index fun node => { node with value } }
      (Function.update contents key (some value)) := by
  obtain ⟨node, found, rfl⟩ := maintained.shows.item here
  intro other expected
  have elsewhere : ∀ {place : Nat}, place ≠ index →
      (self.nodes.modify index fun node => { node with value })[place]? = self.nodes[place]? :=
    fun differs => modify_other differs _
  have written : (self.nodes.modify index fun node => { node with value })[index]?.map MapNode.entry =
      some (node.key, value) := by
    rw [modify_same found]
    rfl
  by_cases same : other = node.key
  · subst same
    rw [Function.update_self]
    constructor
    · intro equal
      cases equal
      exact ⟨index, written⟩
    · rintro ⟨place, entry⟩
      by_cases samePlace : place = index
      · subst samePlace
        cases written.symm.trans entry
        rfl
      · dsimp only at entry
        rw [elsewhere samePlace] at entry
        obtain ⟨twin, twinFound, sameEntry⟩ := Option.map_eq_some_iff.mp entry
        have sameKey : twin.key = node.key := congrArg Prod.fst sameEntry
        have twinItem := maintained.item twinFound
        rw [sameKey] at twinItem
        exact absurd (maintained.key_inj twinItem here) samePlace
  · rw [Function.update_of_ne same, holds other expected]
    constructor
    · rintro ⟨place, entry⟩
      have differs : place ≠ index := by
        rintro rfl
        rw [found] at entry
        exact same (congrArg Prod.fst (Option.some.inj entry)).symm
      exact ⟨place, (congrArg (Option.map MapNode.entry) (elsewhere differs)).trans entry⟩
    · rintro ⟨place, entry⟩
      have differs : place ≠ index := by
        rintro rfl
        exact same (congrArg Prod.fst (Option.some.inj (written.symm.trans entry))).symm
      exact ⟨place, (congrArg (Option.map MapNode.entry) (elsewhere differs)).symm.trans entry⟩

/-- Appending a node and linking it. -/
theorem inserted (maintained : Maintained self tree) (absent : ∀ item ∈ tree.items, item.2 ≠ key)
    (value : V)
    (room : self.nodes.length < noIndex) :
    ∃ top nodes, insertBalanced self.nodes.length (rounds self.nodes)
        (self.nodes ++ [⟨key, value, none, none, 1⟩]) self.root = some (top, nodes) ∧
      Relinked (self.nodes.length :: indices tree) (self.nodes ++ [⟨key, value, none, none, 1⟩]) nodes ∧
      Maintained { self with nodes, root := some top }
        (tree.insert Prod.snd (self.nodes.length, key)) := by
  have found : (self.nodes ++ [⟨key, value, none, none, 1⟩])[self.nodes.length]? =
      some (⟨key, value, none, none, 1⟩ : MapNode K V) := List.getElem?_concat_length
  have notIn : self.nodes.length ∉ indices tree := fun member =>
    Nat.lt_irrefl _ ((maintained.all _).mp member)
  have shows : Shows (self.nodes ++ [⟨key, value, none, none, 1⟩]) self.root tree :=
    maintained.shows.frame fun index member =>
      List.getElem?_append_left ((maintained.all index).mp member)
  have low := maintained.height_lt
  obtain ⟨top, nodes, inserts, relinked, shows⟩ := insertBalanced_shows shows maintained.nodup
    maintained.balanced found ⟨rfl, rfl, rfl⟩ notIn absent maintained.enough (by omega)
  have perm := indices_insert self.nodes.length key tree
  have length : nodes.length = self.nodes.length + 1 := by
    rw [relinked.length, List.length_append, List.length_singleton]
  refine ⟨top, nodes, inserts, relinked, shows, ?_, fun index => ?_, ?_, ?_, ?_⟩
  · exact perm.nodup_iff.mpr (List.nodup_cons.mpr ⟨notIn, maintained.nodup⟩)
  · rw [perm.mem_iff, List.mem_cons, maintained.all]
    dsimp only
    omega
  · exact maintained.ordered.insert absent
  · exact (AvlTree.Balanced.insert Prod.snd _ maintained.balanced).1
  · dsimp only
    omega

theorem inserted_holds (maintained : Maintained self tree) (holds : Holds self contents)
    (absent : ∀ item ∈ tree.items, item.2 ≠ key) {value : V} {nodes : Arena K V} {top : Nat}
    (relinked : Relinked (self.nodes.length :: indices tree)
      (self.nodes ++ [⟨key, value, none, none, 1⟩]) nodes) :
    Holds { self with nodes, root := some top } (Function.update contents key (some value)) := by
  have entry : ∀ index : Nat, nodes[index]?.map MapNode.entry =
      if index = self.nodes.length then some (key, value) else self.nodes[index]?.map MapNode.entry := by
    intro index
    rw [relinked.entry]
    by_cases last : index = self.nodes.length
    · rw [if_pos last, last, List.getElem?_concat_length]
      rfl
    · rw [if_neg last]
      rcases Nat.lt_or_gt_of_ne last with inside | outside
      · rw [List.getElem?_append_left inside]
      · rw [List.getElem?_eq_none, List.getElem?_eq_none]
        · exact Nat.le_of_lt outside
        · rw [List.length_append, List.length_singleton]
          exact outside
  have noKey : ∀ {index : Nat} {stored : V}, self.nodes[index]?.map MapNode.entry ≠
      some (key, stored) := by
    intro index stored held
    obtain ⟨node, found, same⟩ := Option.map_eq_some_iff.mp held
    exact absent _ (maintained.item found) (congrArg Prod.fst same)
  intro other expected
  simp only [entry]
  by_cases same : other = key
  · subst same
    rw [Function.update_self]
    constructor
    · intro equal
      cases equal
      exact ⟨self.nodes.length, if_pos rfl⟩
    · rintro ⟨index, held⟩
      split at held
      · cases held
        rfl
      · exact absurd held noKey
  · rw [Function.update_of_ne same, holds other expected]
    constructor
    · rintro ⟨index, held⟩
      refine ⟨index, ?_⟩
      rw [if_neg, held]
      rintro rfl
      rw [List.getElem?_eq_none (Nat.le_refl _)] at held
      cases held
    · rintro ⟨index, held⟩
      split at held
      · cases held
        exact absurd rfl same
      · exact ⟨index, held⟩

end Maintained

/-! ## Runs -/

inductive Op (K V : Type) where
  | put (key : K) (value : V)
  | ensureUnusedCapacity (additional : Nat) (allocator : Option Nat)
  | clearRetainingCapacity

def apply (self : OrderedMap K V) : Op K V → Option (OrderedMap K V)
  | .put key value => self.putAssumeCapacity key value
  | .ensureUnusedCapacity additional allocator => some (self.ensureUnusedCapacity additional allocator)
  | .clearRetainingCapacity => some self.clearRetainingCapacity

def run (self : OrderedMap K V) : List (Op K V) → Option (OrderedMap K V)
  | [] => some self
  | op :: ops => (self.apply op).bind fun next => next.run ops

/-- What a map should hold after the operations: the last value put for each key since the last clear. -/
def expected (contents : K → Option V) : List (Op K V) → K → Option V
  | [] => contents
  | .put key value :: ops => expected (Function.update contents key (some value)) ops
  | .ensureUnusedCapacity _ _ :: ops => expected contents ops
  | .clearRetainingCapacity :: ops => expected (fun _ => none) ops

/-- A put that has its node goes through, and keeps the tree. -/
theorem Maintained.put (maintained : Maintained self tree) (holds : Holds self contents) (key : K)
    (value : V) :
    ((self.putAssumeCapacity key value).isSome ↔
      (contents key).isSome ∨ self.nodes.length < self.capacity ∧ self.nodes.length < noIndex) ∧
    ∀ after, self.putAssumeCapacity key value = some after → ∃ tree, Maintained after tree ∧
      Holds after (Function.update contents key (some value)) := by
  obtain ⟨result, ends, finds, misses⟩ := maintained.descend_eq key
  have gets := maintained.get_eq holds key
  unfold get at gets
  unfold putAssumeCapacity
  simp only [ends, Option.bind_eq_bind, Option.bind_some] at gets ⊢
  cases result with
  | some index =>
      have here := finds index rfl
      obtain ⟨node, found, -⟩ := maintained.shows.item here
      simp only [found, Option.bind_some] at gets
      have present : contents key = some node.value := (Option.some.inj gets).symm
      constructor
      · refine iff_of_true rfl (.inl ?_)
        rw [present]
        rfl
      · intro after puts
        cases puts
        exact ⟨tree, maintained.overwrite here value, maintained.overwrite_holds holds here value⟩
  | none =>
      have missing : contents key = none := (Option.some.inj gets).symm
      have absent := misses rfl
      simp only [missing, Option.isSome_none, Bool.false_eq_true, false_or]
      by_cases roomy : self.nodes.length < self.capacity
      · by_cases room : self.nodes.length < noIndex
        · obtain ⟨top, nodes, inserts, relinked, grown⟩ := maintained.inserted absent value room
          rw [assert_true roomy, Option.bind_some, assert_true room, Option.bind_some]
          rw [show insertBalanced _ _ _ self.root = some (top, nodes) from inserts]
          constructor
          · exact iff_of_true rfl ⟨roomy, room⟩
          · intro after puts
            cases puts
            exact ⟨_, grown, maintained.inserted_holds holds absent relinked⟩
        · rw [assert_true roomy, Option.bind_some, assert, if_neg room]
          exact ⟨iff_of_false Bool.false_ne_true fun both => room both.2,
            fun after puts => absurd puts.symm (Option.some_ne_none after)⟩
      · rw [assert, if_neg roomy]
        exact ⟨iff_of_false Bool.false_ne_true fun both => roomy both.1,
          fun after puts => absurd puts.symm (Option.some_ne_none after)⟩

theorem Maintained.apply (maintained : Maintained self tree) (holds : Holds self contents) {op : Op K V}
    (ran : self.apply op = some after) :
    ∃ tree, Maintained after tree ∧ Holds after (expected contents [op]) := by
  cases op with
  | put key value => exact (maintained.put holds key value).2 after ran
  | ensureUnusedCapacity additional allocator =>
      cases ran
      cases allocator with
      | none => exact ⟨tree, maintained, holds⟩
      | some more =>
          obtain ⟨shows, nodup, all, ordered, balanced, bounded⟩ := maintained
          exact ⟨tree, ⟨shows, nodup, all, ordered, balanced, bounded⟩, holds⟩
  | clearRetainingCapacity =>
      cases ran
      refine ⟨.leaf, .empty self.capacity, fun key value => iff_of_false (fun same => nomatch same) ?_⟩
      rintro ⟨index, entry⟩
      cases entry

theorem expected_cons (contents : K → Option V) (op : Op K V) (ops : List (Op K V)) :
    expected contents (op :: ops) = expected (expected contents [op]) ops := by
  cases op <;> rfl

theorem Maintained.run {ops : List (Op K V)} (maintained : Maintained self tree)
    (holds : Holds self contents) (ran : self.run ops = some after) :
    ∃ tree, Maintained after tree ∧ Holds after (expected contents ops) := by
  induction ops generalizing self tree contents with
  | nil =>
      cases ran
      exact ⟨tree, maintained, holds⟩
  | cons op ops ih =>
      obtain ⟨next, steps, rest⟩ := Option.bind_eq_some_iff.mp ran
      obtain ⟨grown, kept, held⟩ := maintained.apply holds steps
      obtain ⟨final, last, lastHolds⟩ := ih kept held rest
      refine ⟨final, last, ?_⟩
      rw [expected_cons]
      exact lastHolds

omit [LinearOrder K] in
/-- The factors read off the stored heights. -/
theorem Shows.factor {nodes : Arena K V} {root : Option Nat} (shows : Shows nodes root tree)
    (balanced : tree.Balanced) (member : index ∈ indices tree) :
    ∃ factor, balanceFactor nodes (some index) = some factor ∧ -1 ≤ factor ∧ factor ≤ 1 := by
  induction shows with
  | leaf => cases member
  | node found inLeft inRight height ihLeft ihRight =>
      rename_i place node left right
      obtain ⟨leftBalanced, rightBalanced, leftLow, rightLow⟩ := balanced
      rw [indices_node] at member
      rcases List.mem_append.mp member with near | beyond
      · exact ihLeft leftBalanced near
      · rcases List.mem_cons.mp beyond with rfl | far
        · have linked : Linked nodes index node.key left right := ⟨node, found, rfl, inLeft, inRight⟩
          exact ⟨_, linked.balanceFactor_eq, by omega, by omega⟩
        · exact ihRight rightBalanced far

/-- After any operations the nodes make up one search tree with exact heights, balanced at every node;
lookups end with the last value put, and a put ends unless it lacks a node. -/
theorem run_maintained (ops : List (Op K V)) {map : OrderedMap K V}
    (ran : OrderedMap.run {} ops = some map) :
    (∃ tree, Shows map.nodes map.root tree ∧ tree.Ordered Prod.snd ∧ (indices tree).Nodup ∧
      ∀ index, index ∈ indices tree ↔ index < map.nodes.length) ∧
    (∀ index < map.nodes.length, ∃ factor, balanceFactor map.nodes (some index) = some factor ∧
      -1 ≤ factor ∧ factor ≤ 1) ∧
    (∀ key, map.get key = some (expected (fun _ => none) ops key)) ∧
    ∀ key value, (map.putAssumeCapacity key value).isSome ↔
      (expected (fun _ => none) ops key).isSome ∨
        map.nodes.length < map.capacity ∧ map.nodes.length < noIndex := by
  have holds : Holds ({} : OrderedMap K V) fun _ => none := by
    refine fun key value => iff_of_false (fun same => nomatch same) ?_
    rintro ⟨index, entry⟩
    cases entry
  obtain ⟨tree, maintained, held⟩ := (Maintained.empty 0).run holds ran
  refine ⟨⟨tree, maintained.shows, maintained.ordered, maintained.nodup, maintained.all⟩,
    fun index inside => ?_, maintained.get_eq held, fun key value => (maintained.put held key value).1⟩
  exact maintained.shows.factor maintained.balanced ((maintained.all index).mpr inside)

/-- Keys in ascending order, where a plain tree would be a list. -/
theorem run_maintained_ascending :
    ∃ map : OrderedMap Nat Nat,
      OrderedMap.run {} [.ensureUnusedCapacity 3 (some 0), .put 1 10, .put 2 20, .put 3 30, .put 2 21] =
        some map ∧
      map.root = some 1 ∧ map.get 2 = some (some 21) ∧ map.get 4 = some none := by
  have runs : OrderedMap.run ({} : OrderedMap Nat Nat)
      [.ensureUnusedCapacity 3 (some 0), .put 1 10, .put 2 20, .put 3 30, .put 2 21] =
      some ⟨[⟨1, 10, none, none, 1⟩, ⟨2, 21, some 0, some 2, 2⟩, ⟨3, 30, none, none, 1⟩], 3,
        some 1⟩ := by
    decide +kernel
  have correct := run_maintained _ runs
  exact ⟨_, runs, rfl, correct.2.2.1 2, correct.2.2.1 4⟩

end Maps

end OrderedMap

end EvmZig.State
