import Mathlib.Data.Fintype.Card
import Mathlib.Data.List.Perm.Subperm
import Mathlib.Data.List.Range
import Mathlib.Data.Fintype.EquivFin
import Mathlib.Logic.Relation
import Mathlib.Order.WellFounded
import Mathlib.Tactic.Tauto

/-!
# Draining a graph from its roots

The nodes without an unprocessed parent are queued; processing one takes its
links away, and a node is queued when the last link to it is taken.  Every node
is queued exactly when none reaches itself.
-/

set_option autoImplicit false

namespace EvmZig.Lib

open Relation

/-- One of the first `count` nodes has a link to the other. -/
def Linked (links : Nat → List Nat) (count parent child : Nat) : Prop :=
  parent < count ∧ child ∈ links parent

/-- No node reaches itself. -/
def Acyclic (links : Nat → List Nat) (count : Nat) : Prop :=
  ∀ node, ¬TransGen (Linked links count) node node

/-- The links not taken yet: what is left of the current node's, and those of the nodes to come. -/
def owed (links : Nat → List Nat) (count : Nat) (done rest : List Nat) : List Nat :=
  rest ++ ((List.range count).filter fun node => decide (node ∉ done)).flatMap links

/-- The queue while the links of the last node of `done` are taken. -/
structure Draining (links : Nat → List Nat) (count : Nat) (done rest : List Nat)
    (incoming : Nat → Nat) (queue : List Nat) : Prop where
  processed : done <+: queue
  nodup : queue.Nodup
  inside : ∀ node ∈ queue, node < count
  counts : ∀ node, node < count → incoming node = (owed links count done rest).count node
  queued : ∀ node, node < count → (node ∈ queue ↔ incoming node = 0)
  ordered : ∀ before node after, queue = before ++ node :: after →
    ∀ parent, Linked links count parent node → parent ∈ before

variable {links : Nat → List Nat} {count target next : Nat} {done rest queue later : List Nat}
  {incoming : Nat → Nat}

theorem mem_owed {node : Nat} :
    node ∈ owed links count done rest ↔
      node ∈ rest ∨ ∃ parent, parent ∉ done ∧ Linked links count parent node := by
  rw [owed, List.mem_append, List.mem_flatMap]
  apply or_congr Iff.rfl
  apply exists_congr
  intro parent
  rw [List.mem_filter, List.mem_range, decide_eq_true_iff, Linked]
  tauto

/-- A node not owed a link has only processed parents. -/
theorem parent_done {node : Nat} (none : (owed links count done rest).count node = 0) (parent : Nat)
    (linked : Linked links count parent node) : parent ∈ done := by
  by_contra waiting
  exact List.count_eq_zero.mp none (mem_owed.mpr (.inr ⟨parent, waiting, linked⟩))

theorem filter_done {waiting : List Nat} (nodup : waiting.Nodup) (member : next ∈ waiting)
    (fresh : next ∉ done) :
    (waiting.filter fun node => decide (node ∉ done)).Perm
      (next :: waiting.filter fun node => decide (node ∉ done ++ [next])) := by
  have split : (waiting.filter fun node => decide (node ∉ done ++ [next])) =
      (waiting.filter fun node => decide (node ∉ done)).erase next := by
    rw [(nodup.filter _).erase_eq_filter, List.filter_filter]
    apply List.filter_congr
    intro node _
    by_cases same : node = next
    · simp [same]
    · simp [same]
  rw [split]
  apply List.perm_cons_erase
  exact List.mem_filter.mpr ⟨member, decide_eq_true fresh⟩

/-- The links of the next node are owed no more by the nodes to come. -/
theorem owed_next (inside : next < count) (fresh : next ∉ done) (node : Nat) :
    (owed links count done []).count node =
      (owed links count (done ++ [next]) (links next)).count node := by
  have moved := filter_done List.nodup_range (List.mem_range.mpr inside) fresh
  have counted := (moved.flatMap_right links).count_eq node
  rw [owed, owed, List.nil_append, counted, List.flatMap_cons]

namespace Draining

/-- The queue at first: the nodes that no link leads to. -/
theorem start
    (counts : ∀ node, node < count → incoming node = (owed links count [] []).count node)
    (roots : queue = (List.range count).filter fun node => decide (incoming node = 0)) :
    Draining links count [] [] incoming queue := by
  subst roots
  have member : ∀ node, node ∈ (List.range count).filter (fun node => decide (incoming node = 0)) ↔
      node < count ∧ incoming node = 0 := by
    intro node
    rw [List.mem_filter, List.mem_range, decide_eq_true_iff]
  refine ⟨List.nil_prefix, List.nodup_range.filter _, fun node queued => ((member node).mp queued).1,
    counts, fun node inside => ?_, fun before node after split parent linked => ?_⟩
  · rw [member]
    exact and_iff_right inside
  · have queued := (member node).mp (split ▸ List.mem_append_right before List.mem_cons_self)
    have none := queued.2
    rw [counts node queued.1] at none
    exact absurd (parent_done none parent linked) List.not_mem_nil

/-- The next node of the queue is processed. -/
theorem turn (draining : Draining links count done [] incoming queue)
    (split : queue = done ++ next :: later) :
    Draining links count (done ++ [next]) (links next) incoming queue := by
  have inside := draining.inside next (split ▸ List.mem_append_right done List.mem_cons_self)
  have fresh : next ∉ done := by
    intro member
    have nodup := draining.nodup
    rw [split] at nodup
    exact (List.nodup_append.mp nodup).2.2 next member next List.mem_cons_self rfl
  refine ⟨⟨later, ?_⟩, draining.nodup, draining.inside, fun node within => ?_, draining.queued,
    draining.ordered⟩
  · rw [split, List.append_assoc]
    rfl
  · rw [draining.counts node within]
    exact owed_next inside fresh node

/-- A link still owed is counted. -/
theorem positive (draining : Draining links count done (target :: rest) incoming queue)
    (inside : target < count) : 0 < incoming target := by
  rw [draining.counts target inside]
  exact List.count_pos_iff.mpr (mem_owed.mpr (.inl List.mem_cons_self))

/-- The count of a node once a link to the target is taken. -/
theorem counts_taken (draining : Draining links count done (target :: rest) incoming queue)
    (node : Nat) (within : node < count) :
    (if node = target then incoming node - 1 else incoming node) =
      (owed links count done rest).count node := by
  have before := draining.counts node within
  rw [owed, List.cons_append, List.count_cons] at before
  by_cases same : node = target
  · rw [if_pos same, before, same, beq_self_eq_true, if_pos rfl, Nat.add_sub_cancel, owed]
  · rw [if_neg same, before, if_neg (by simpa using Ne.symm same), Nat.add_zero, owed]

/-- A link is taken, and others to the same node are left. -/
theorem taken (draining : Draining links count done (target :: rest) incoming queue)
    (inside : target < count) (left : incoming target - 1 ≠ 0) :
    Draining links count done rest
      (fun node => if node = target then incoming node - 1 else incoming node) queue := by
  refine ⟨draining.processed, draining.nodup, draining.inside, draining.counts_taken,
    fun node within => ?_, draining.ordered⟩
  rw [draining.queued node within]
  by_cases same : node = target
  · have positive := draining.positive inside
    subst same
    rw [if_pos rfl]
    omega
  · rw [if_neg same]

/-- The last link to a node is taken. -/
theorem freed (draining : Draining links count done (target :: rest) incoming queue)
    (inside : target < count) (none : incoming target - 1 = 0) :
    Draining links count done rest
      (fun node => if node = target then incoming node - 1 else incoming node)
      (queue ++ [target]) := by
  have waiting : target ∉ queue := by
    rw [draining.queued target inside]
    exact (draining.positive inside).ne'
  have counts := draining.counts_taken
  refine ⟨draining.processed.trans (List.prefix_append _ _), ?_, fun node member => ?_, counts,
    fun node within => ?_, fun before node after split parent linked => ?_⟩
  · exact List.nodup_append.mpr ⟨draining.nodup, List.nodup_singleton _, fun node old other new => by
      rw [List.mem_singleton.mp new]
      rintro rfl
      exact waiting old⟩
  · rcases List.mem_append.mp member with old | new
    · exact draining.inside node old
    · exact List.mem_singleton.mp new ▸ inside
  · rw [List.mem_append, List.mem_singleton, draining.queued node within]
    by_cases same : node = target
    · subst same
      rw [if_pos rfl]
      exact ⟨fun _ => none, fun _ => .inr rfl⟩
    · rw [if_neg same]
      exact ⟨fun here => here.resolve_right same, .inl⟩
  · rcases List.eq_nil_or_concat after with rfl | ⟨shorter, last, rfl⟩
    · obtain ⟨rfl, singleton⟩ := List.append_inj' split rfl
      obtain rfl := List.head_eq_of_cons_eq singleton
      have zero := counts target inside
      rw [if_pos rfl, none] at zero
      exact draining.processed.subset (parent_done zero.symm parent linked)
    · have longer : queue ++ [target] = (before ++ node :: shorter) ++ [last] := by
        rw [split, List.append_assoc, List.cons_append, List.concat_eq_append]
      obtain ⟨rfl, -⟩ := List.append_inj' longer rfl
      exact draining.ordered before node shorter rfl parent linked

/-- Whatever reaches a queued node is queued before it. -/
theorem reaches_before (draining : Draining links count done rest incoming queue) {parent node : Nat}
    (reaches : TransGen (Linked links count) parent node) {before after : List Nat}
    (split : queue = before ++ node :: after) : parent ∈ before := by
  induction reaches generalizing before after with
  | single linked => exact draining.ordered before _ after split parent linked
  | tail _ linked ih =>
      rename_i middle last _
      have early := draining.ordered before last after split middle linked
      obtain ⟨first, second, rfl⟩ := List.append_of_mem early
      have sooner : queue = first ++ middle :: (second ++ last :: after) := by
        rw [split, List.append_assoc, List.cons_append]
      exact List.mem_append_left _ (ih sooner)

theorem queued_acyclic (draining : Draining links count done rest incoming queue) {node : Nat}
    (member : node ∈ queue) : ¬TransGen (Linked links count) node node := by
  intro reaches
  obtain ⟨before, after, split⟩ := List.append_of_mem member
  have early := draining.reaches_before reaches split
  have nodup := draining.nodup
  rw [split] at nodup
  exact (List.nodup_append.mp nodup).2.2 node early node List.mem_cons_self rfl

theorem length_le (draining : Draining links count done rest incoming queue) :
    queue.length ≤ count := by
  have within := (draining.nodup.subperm
    (fun node member => List.mem_range.mpr (draining.inside node member) :
      queue ⊆ List.range count)).length_le
  rwa [List.length_range] at within

/-- With every node queued, none reaches itself. -/
theorem acyclic (draining : Draining links count done rest incoming queue)
    (all : queue.length = count) : Acyclic links count := by
  intro node reaches
  have inside : node < count := by
    obtain ⟨next, linked, -⟩ := TransGen.head'_iff.mp reaches
    exact linked.1
  have whole : queue.Perm (List.range count) :=
    (draining.nodup.subperm fun node member =>
      List.mem_range.mpr (draining.inside node member)).perm_of_length_le
      (by rw [List.length_range, all])
  exact draining.queued_acyclic (whole.mem_iff.mpr (List.mem_range.mpr inside)) reaches

/-- With the queue processed and a node left out, some node reaches itself. -/
theorem cyclic (draining : Draining links count queue [] incoming queue)
    (some : queue.length ≠ count) : ¬Acyclic links count := by
  intro acyclic
  have left : ∃ node : Fin count, node.val ∉ queue := by
    by_contra full
    have all : List.range count ⊆ queue := by
      intro node member
      by_contra missing
      exact full ⟨⟨node, List.mem_range.mp member⟩, missing⟩
    have long := (List.nodup_range.subperm all).length_le
    rw [List.length_range] at long
    exact some (Nat.le_antisymm draining.length_le long)
  let before : Fin count → Fin count → Prop := fun first second =>
    TransGen (Linked links count) first.val second.val
  have : IsTrans (Fin count) before := ⟨fun _ _ _ first second => first.trans second⟩
  have : Std.Irrefl before := ⟨fun node => acyclic node.val⟩
  have founded : WellFounded before := Finite.wellFounded_of_trans_of_irrefl _
  -- A first node among those left out has no parent left out, so nothing was owed to it.
  obtain ⟨first, missing, minimal⟩ := founded.has_min {node | node.val ∉ queue} left
  apply missing
  rw [draining.queued first.val first.isLt, draining.counts first.val first.isLt, List.count_eq_zero]
  intro member
  rcases mem_owed.mp member with now | ⟨parent, waiting, linked⟩
  · exact List.not_mem_nil now
  · exact minimal ⟨parent, linked.1⟩ waiting (TransGen.single linked)

end Draining

end EvmZig.Lib
