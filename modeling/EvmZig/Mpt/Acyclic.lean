import EvmZig.Lib.TopologicalQueue
import EvmZig.Mpt.Catalog

/-!
# Acyclic catalogs

The walk of `validateAcyclic` drains the graph of the builder's links, so it
accepts exactly the graphs in which no node reaches itself, where the allocator
grants its requests and no node has more links to it than 32 bits count.
-/

set_option autoImplicit false

namespace EvmZig.Mpt.Catalog.Builder

open Zig Lib

variable {grants : Nat → Bool} {builder : Builder} {walk : Walk} {node : Nat} {links : List Link}
  {seen done : List Nat}

/-! ## The graph -/

/-- The nodes that a node has links to. -/
def targets (builder : Builder) (node : Nat) : List Nat :=
  match builder.nodes[node]? with
  | none => []
  | some entry =>
      match linksOf builder entry with
      | .ok links => links.filterMap Link.node
      | _ => []

/-- No node reaches itself through its links. -/
def NoCycle (builder : Builder) : Prop := Acyclic builder.targets builder.nodes.length

/-- The nodes that the links of the graph lead to, one for each link. -/
def allTargets (builder : Builder) : List Nat :=
    (List.range builder.nodes.length).flatMap builder.targets

/-- The links to each node can be counted in 32 bits. -/
def CountsFit (builder : Builder) : Prop :=
  ∀ node, node < builder.nodes.length → builder.allTargets.count node ≤ u32Max

/-- The links of an entry are held, and lead to nodes that are. -/
def Local (builder : Builder) (entry : Node) : Prop :=
  ∃ links, linksOf builder entry = .ok links ∧
    ∀ link ∈ links, ∀ node, link.node = some node → node < builder.nodes.length

theorem checkEach_ok {ι : Type} {check : ι → Checked BuildError Unit} {items : List ι}
    (passed : checkEach check items = .ok ()) : ∀ item ∈ items, check item = .ok () := by
  induction items with
  | nil => exact fun item member => absurd member List.not_mem_nil
  | cons first items ih =>
      obtain ⟨⟨⟩, here, rest⟩ := Checked.bind_eq_ok.mp passed
      intro item member
      rcases List.mem_cons.mp member with rfl | later
      · exact here
      · exact ih rest item later

theorem checkExtension_inside {child : Link} (passed : checkExtension builder child = .ok ())
    (found : child.node = some node) : node < builder.nodes.length := by
  rw [checkExtension, found] at passed
  dsimp only at passed
  split at passed
  · cases passed
  · rename_i target held
    exact (List.getElem?_eq_some_iff.mp held).1

theorem checkChild_inside {child : Link} (passed : checkChild builder child = .ok ())
    (found : child.node = some node) : node < builder.nodes.length := by
  rw [checkChild, found] at passed
  dsimp only at passed
  split at passed
  · cases passed
  · rename_i inside
    exact Nat.lt_of_not_le inside

/-- What `validateLocalTopology` establishes. -/
theorem validateLocalTopology_local (passed : validateLocalTopology builder = .ok ()) :
    ∀ entry ∈ builder.nodes, builder.Local entry := by
  intro entry member
  have checked := checkEach_ok passed entry member
  obtain ⟨links, same, each⟩ := Checked.bind_eq_ok.mp checked
  refine ⟨links, same, fun link held node found => ?_⟩
  split at each
  · exact checkExtension_inside (checkEach_ok each link held) found
  · exact checkChild_inside (checkEach_ok each link held) found

theorem targets_eq {entry : Node} (held : builder.nodes[node]? = some entry)
    (same : linksOf builder entry = .ok links) :
    builder.targets node = links.filterMap Link.node := by
  rw [targets, held]
  dsimp only
  rw [same]

/-- The targets of the first nodes. -/
def firstTargets (builder : Builder) (nodes : List Node) : List Nat :=
  nodes.flatMap fun entry =>
    match linksOf builder entry with
    | .ok links => links.filterMap Link.node
    | _ => []

theorem allTargets_eq (builder : Builder) : builder.allTargets = firstTargets builder builder.nodes := by
  have listed : (List.range builder.nodes.length).map (fun place => builder.nodes[place]?) =
      builder.nodes.map some := by
    apply List.ext_getElem
    · simp
    · intro place _ _
      simp
  rw [allTargets, firstTargets, List.flatMap_def, List.flatMap_def]
  congr 1
  have through : builder.targets = (fun found : Option Node => match found with
      | none => []
      | some entry =>
          match linksOf builder entry with
          | .ok links => links.filterMap Link.node
          | _ => []) ∘ fun place => builder.nodes[place]? := by
    funext place
    rfl
  rw [through, ← List.map_map, listed, List.map_map]
  rfl

/-! ## Counting -/

/-- The counts of the links seen so far. -/
structure Counted (builder : Builder) (seen : List Nat) (walk : Walk) : Prop where
  length : walk.incoming.length = builder.nodes.length
  counts : ∀ node, node < builder.nodes.length → walk.incoming[node]? = some (seen.count node)
  fits : ∀ node, node < builder.nodes.length → seen.count node ≤ u32Max
  work : walk.work = []

/-- A count of the links, or one too large for 32 bits. -/
def Counts (builder : Builder) (seen : List Nat) : Outcome Walk BuildError Unit → Prop
  | .ok _ after => Counted builder seen after
  | .fail error after =>
      error = .resourceLimitExceeded ∧ after.work = [] ∧
        ∃ node, node < builder.nodes.length ∧ seen.count node > u32Max
  | .illegal => False

theorem Counts.bind {first : Action Walk BuildError Unit}
    {next : Unit → Action Walk BuildError Unit} {more : List Nat}
    (here : Counts builder seen (first walk))
    (there : ∀ after, Counted builder seen after → Counts builder (seen ++ more) (next () after)) :
    Counts builder (seen ++ more) ((first >>= next) walk) := by
  rw [Action.bind_run]
  cases ran : first walk with
  | ok value after =>
      rw [ran] at here
      exact there after here
  | fail error after =>
      rw [ran] at here
      obtain ⟨same, work, node, inside, many⟩ := here
      refine ⟨same, work, node, inside, many.trans_le ?_⟩
      rw [List.count_append]
      exact Nat.le_add_right _ _
  | illegal =>
      rw [ran] at here
      exact here

theorem addIncoming_counts (counted : Counted builder seen walk)
    (inside : node < builder.nodes.length) :
    Counts builder (seen ++ [node]) (addIncoming node walk) := by
  have more : (seen ++ [node]).count node = seen.count node + 1 := by
    rw [List.count_append, List.count_singleton_self]
  have kept : ∀ other, node ≠ other → (seen ++ [node]).count other = seen.count other := by
    intro other differs
    rw [List.count_append, List.count_singleton, if_neg (by simpa using differs), Nat.add_zero]
  rw [addIncoming, Action.bind_run, Action.get_run]
  dsimp only
  rw [counted.counts node inside, Action.bind_run, Action.liftM_some]
  dsimp only
  split
  · rename_i large
    exact ⟨rfl, counted.work, node, inside, by rwa [more]⟩
  · rename_i small
    refine ⟨(List.length_set ..).trans counted.length, fun other within => ?_, fun other within => ?_,
      counted.work⟩
    · show (walk.incoming.set node (seen.count node + 1))[other]? = _
      rw [List.getElem?_set]
      by_cases same : node = other
      · subst same
        rw [if_pos rfl, if_pos (counted.length ▸ inside), more]
      · rw [if_neg same, counted.counts other within, kept other same]
    · by_cases same : node = other
      · subst same
        rw [more]
        exact Nat.le_of_not_lt small
      · rw [kept other same]
        exact counted.fits other within

theorem addLinks_counts (counted : Counted builder seen walk)
    (inside : ∀ link ∈ links, ∀ node, link.node = some node → node < builder.nodes.length) :
    Counts builder (seen ++ links.filterMap Link.node) (Action.forEach addLink links walk) := by
  induction links generalizing seen walk with
  | nil =>
      rw [List.filterMap_nil, List.append_nil]
      exact counted
  | cons link links ih =>
      have later := fun other member => inside other (List.mem_cons_of_mem link member)
      cases found : link.node with
      | none =>
          rw [List.filterMap_cons_none found]
          rw [Action.forEach, Action.bind_run, addLink, found]
          exact ih counted later
      | some node =>
          have here := addIncoming_counts counted (inside link List.mem_cons_self node found)
          rw [List.filterMap_cons_some found, ← List.singleton_append, ← List.append_assoc]
          rw [Action.forEach, addLink, found]
          exact here.bind fun after counted => ih counted later

theorem countIncoming_counts (nodes : List Node) (counted : Counted builder seen walk)
    (here : ∀ entry ∈ nodes, builder.Local entry) :
    Counts builder (seen ++ firstTargets builder nodes) (Action.forEach (fun entry => do
      let links ← linksOf builder entry
      Action.forEach addLink links) nodes walk) := by
  induction nodes generalizing seen walk with
  | nil =>
      rw [firstTargets, List.flatMap_nil, List.append_nil]
      exact counted
  | cons entry nodes ih =>
      obtain ⟨links, same, inside⟩ := here entry List.mem_cons_self
      have split : firstTargets builder (entry :: nodes) =
          links.filterMap Link.node ++ firstTargets builder nodes := by
        rw [firstTargets, List.flatMap_cons, same]
        rfl
      rw [split, ← List.append_assoc, Action.forEach]
      apply Counts.bind
      · rw [same, Action.bind_run, Action.liftM_ok]
        exact addLinks_counts counted inside
      · intro after counted
        exact ih counted fun other member => here other (List.mem_cons_of_mem entry member)

/-! ## Draining -/

/-- An allocation was refused. -/
def Refused (grants : Nat → Bool) (error : BuildError) : Prop :=
  error = .outOfMemory ∧ ∃ request, grants request = false

/-- The walk drains the graph. -/
structure Drains (builder : Builder) (done rest : List Nat) (walk : Walk) : Prop where
  length : walk.incoming.length = builder.nodes.length
  draining : Draining builder.targets builder.nodes.length done rest
    (fun node => walk.incoming.getD node 0) walk.work

/-- A run that drains on, or is refused memory; no node is queued twice. -/
def Goes {α : Type} (grants : Nat → Bool) (holds : α → Walk → Prop) :
    Outcome Walk BuildError α → Prop
  | .ok value after => holds value after
  | .fail error after => Refused grants error ∧ after.work.Nodup
  | .illegal => False

theorem Goes.bind {α β : Type} {first : Action Walk BuildError α} {next : α → Action Walk BuildError β}
    {holds : α → Walk → Prop} {after : β → Walk → Prop} (here : Goes grants holds (first walk))
    (there : ∀ value middle, holds value middle → Goes grants after (next value middle)) :
    Goes grants after ((first >>= next) walk) := by
  rw [Action.bind_run]
  cases ran : first walk with
  | ok value middle =>
      rw [ran] at here
      exact there value middle here
  | fail error middle =>
      rw [ran] at here
      exact here
  | illegal =>
      rw [ran] at here
      exact here

theorem allocate_goes {holds : Unit → Walk → Prop} (nodup : walk.work.Nodup)
    (granted : holds () { walk with requested := walk.requested + 1 }) :
    Goes grants holds (allocate grants walk) := by
  rw [allocate]
  split
  · exact granted
  · rename_i refused
    exact ⟨⟨rfl, walk.requested, Bool.not_eq_true _ ▸ refused⟩, nodup⟩

theorem append_goes {holds : Unit → Walk → Prop} (nodup : walk.work.Nodup)
    (granted : holds () { walk with work := walk.work ++ [node], requested := walk.requested + 1 }) :
    Goes grants holds (append grants node walk) := by
  have asked : Goes grants (fun _ after => after = { walk with requested := walk.requested + 1 })
      (allocate grants walk) := allocate_goes nodup rfl
  rw [append]
  apply asked.bind
  rintro _ middle rfl
  exact granted

theorem getD_set {counts : List Nat} {value : Nat} (inside : node < counts.length) (other : Nat) :
    (counts.set node value).getD other 0 = if other = node then value else counts.getD other 0 := by
  rw [List.getD_eq_getElem?_getD, List.getElem?_set, List.getD_eq_getElem?_getD]
  by_cases same : node = other
  · subst same
    rw [if_pos rfl, if_pos inside, if_pos rfl]
    rfl
  · rw [if_neg same, if_neg (Ne.symm same)]

theorem removeIncoming_goes {rest : List Nat} {link : Link} (found : link.node = some node)
    (drains : Drains builder done (node :: rest) walk) (inside : node < builder.nodes.length) :
    Goes grants (fun _ => Drains builder done rest) (removeIncoming grants link walk) := by
  have within : node < walk.incoming.length := drains.length ▸ inside
  have value : walk.incoming[node]? = some (walk.incoming.getD node 0) := by
    rw [List.getD_eq_getElem?_getD, List.getElem?_eq_getElem within]
    rfl
  have positive := drains.draining.positive inside
  have counts : ∀ left, (fun other => (walk.incoming.set node left).getD other 0) =
      fun other => if other = node then left else walk.incoming.getD other 0 :=
    fun left => funext fun other => getD_set within other
  have lowered : (fun other => if other = node then walk.incoming.getD node 0 - 1
      else walk.incoming.getD other 0) =
      fun other => if other = node then walk.incoming.getD other 0 - 1
        else walk.incoming.getD other 0 := by
    funext other
    split
    · rename_i same
      rw [same]
    · rfl
  rw [removeIncoming, found]
  dsimp only
  rw [Action.bind_run, Action.get_run]
  dsimp only
  rw [value, Action.bind_run, Action.liftM_some]
  dsimp only
  rw [if_neg positive.ne', Action.bind_run, Action.modify_run]
  dsimp only
  rw [Action.when]
  split
  · rename_i none
    refine append_goes drains.draining.nodup ⟨(List.length_set ..).trans drains.length, ?_⟩
    have freed := drains.draining.freed inside none
    rw [← lowered, ← counts] at freed
    exact freed
  · rename_i left
    refine ⟨(List.length_set ..).trans drains.length, ?_⟩
    have taken := drains.draining.taken inside left
    rw [← lowered, ← counts] at taken
    exact taken

theorem removeLinks_goes (drains : Drains builder done (links.filterMap Link.node) walk)
    (inside : ∀ link ∈ links, ∀ node, link.node = some node → node < builder.nodes.length) :
    Goes grants (fun _ => Drains builder done [])
      (Action.forEach (removeIncoming grants) links walk) := by
  induction links generalizing walk with
  | nil => exact drains
  | cons link links ih =>
      have later := fun other member => inside other (List.mem_cons_of_mem link member)
      rw [Action.forEach]
      cases found : link.node with
      | none =>
          rw [List.filterMap_cons_none found] at drains
          rw [Action.bind_run, removeIncoming, found]
          exact ih drains later
      | some node =>
          rw [List.filterMap_cons_some found] at drains
          have here : Goes grants (fun _ => Drains builder done (links.filterMap Link.node))
              (removeIncoming grants link walk) :=
            removeIncoming_goes found drains (inside link List.mem_cons_self node found)
          exact here.bind fun _ middle drains => ih drains later

/-- With the nodes of `done` processed, the loop processes the others of the queue. -/
theorem drain_goes (here : ∀ entry ∈ builder.nodes, builder.Local entry) (fuel : Nat)
    (enough : builder.nodes.length < fuel + done.length) (drains : Drains builder done [] walk) :
    Goes grants (fun visited after => Drains builder after.work [] after ∧ visited = after.work.length)
      (drain grants builder fuel done.length done.length walk) := by
  induction fuel generalizing done walk with
  | zero =>
      have short := drains.draining.processed.length_le.trans drains.draining.length_le
      omega
  | succ fuel ih =>
      obtain ⟨later, split⟩ := drains.draining.processed
      rw [drain, Action.bind_run, Action.get_run]
      dsimp only
      cases later with
      | nil =>
          rw [List.append_nil] at split
          have past : walk.work[done.length]? = none := by
            rw [← split]
            exact List.getElem?_eq_none (Nat.le_refl _)
          rw [past]
          refine ⟨?_, congrArg List.length split⟩
          rw [← split]
          exact drains
      | cons next later =>
          have found : walk.work[done.length]? = some next := by
            rw [← split, List.getElem?_append_right (Nat.le_refl _), Nat.sub_self]
            rfl
          have inside := drains.draining.inside next
            (split ▸ List.mem_append_right done List.mem_cons_self)
          have held : builder.nodes[next]? = some builder.nodes[next] := List.getElem?_eq_getElem inside
          obtain ⟨links, same, within⟩ := here builder.nodes[next] (List.getElem_mem inside)
          have turned := drains.draining.turn split.symm
          rw [targets_eq held same] at turned
          have longer : (done ++ [next]).length = done.length + 1 := by
            rw [List.length_append, List.length_singleton]
          rw [found]
          dsimp only
          rw [held, Action.bind_run, Action.liftM_some]
          dsimp only
          rw [same, Action.bind_run, Action.liftM_ok]
          dsimp only
          refine (removeLinks_goes ⟨drains.length, turned⟩ within).bind fun _ middle drained => ?_
          rw [← longer]
          exact ih (by omega) drained

/-- Queueing the nodes that no link leads to. -/
theorem appendAll_goes (nodes : List Nat) (nodup : (walk.work ++ nodes).Nodup) :
    Goes grants (fun _ after => after.incoming = walk.incoming ∧ after.work = walk.work ++ nodes)
      (Action.forEach (append grants) nodes walk) := by
  induction nodes generalizing walk with
  | nil => exact ⟨rfl, (List.append_nil _).symm⟩
  | cons node nodes ih =>
      have split : walk.work ++ node :: nodes = (walk.work ++ [node]) ++ nodes :=
        (List.append_assoc walk.work [node] nodes).symm
      rw [Action.forEach]
      rw [split] at nodup ⊢
      have here : Goes grants (fun _ middle => middle.incoming = walk.incoming ∧
          middle.work = walk.work ++ [node]) (append grants node walk) :=
        append_goes ((List.sublist_append_left walk.work [node]).nodup
          (List.nodup_append.mp nodup).1) ⟨rfl, rfl⟩
      apply here.bind
      rintro _ middle ⟨incoming, work⟩
      rw [← work] at nodup ⊢
      rw [← incoming]
      exact ih nodup

theorem owed_all (builder : Builder) :
    owed builder.targets builder.nodes.length [] [] = builder.allTargets := by
  rw [owed, List.nil_append, allTargets]
  congr 1
  apply List.filter_eq_self.mpr
  intro node _
  exact decide_eq_true List.not_mem_nil

theorem queueRoots_goes (counted : Counted builder builder.allTargets walk) :
    Goes grants (fun _ => Drains builder [] []) (queueRoots grants walk) := by
  have found : ∀ node, node < builder.nodes.length →
      walk.incoming.getD node 0 = builder.allTargets.count node := by
    intro node inside
    rw [List.getD_eq_getElem?_getD, counted.counts node inside]
    rfl
  have start : Draining builder.targets builder.nodes.length [] []
      (fun node => walk.incoming.getD node 0)
      ((List.range builder.nodes.length).filter fun node =>
        decide (walk.incoming.getD node 0 = 0)) := by
    apply Draining.start
    · intro node inside
      rw [owed_all]
      exact found node inside
    · rfl
  rw [queueRoots, Action.bind_run, Action.read_run]
  dsimp only
  rw [Action.bind_run, Action.modify_run]
  dsimp only
  have unqueued : ({ walk with work := [] } : Walk).work = [] := rfl
  have roots := @appendAll_goes grants { walk with work := [] }
    ((List.range walk.incoming.length).filter fun index =>
      decide (walk.incoming.getD index 0 = 0)) (by rw [unqueued]; exact List.nodup_range.filter _)
  revert roots
  cases Action.forEach (append grants) _ _ with
  | ok value after =>
      rintro ⟨incoming, work⟩
      refine ⟨incoming ▸ counted.length, ?_⟩
      rw [work, incoming, counted.length]
      exact start
  | fail error after => exact id
  | illegal => exact id

/-! ## The check -/

/-- What the check returns, and what it says of the graph; `work` lists the nodes it visited or
was about to, in their order. -/
def Decides (grants : Nat → Bool) (builder : Builder) : Outcome Walk BuildError Unit → Prop
  | .ok _ after => after.work.Nodup ∧ builder.NoCycle ∧ builder.CountsFit
  | .fail error after => after.work.Nodup ∧
      ((error = invalidNodeReference ∧ ¬builder.NoCycle) ∨
        (error = .resourceLimitExceeded ∧ ¬builder.CountsFit) ∨ Refused grants error)
  | .illegal => False

/-- What is left of the check once the links are counted. -/
theorem visit_decides (here : ∀ entry ∈ builder.nodes, builder.Local entry) (spare : Nat)
    (counted : Counted builder builder.allTargets walk) :
    Decides grants builder ((do
      queueRoots grants
      let visited ← drain grants builder (builder.nodes.length + 1 + spare) 0 0
      if visited ≠ builder.nodes.length then Action.fail invalidNodeReference
      else return () : Action Walk BuildError Unit) walk) := by
  have gone : Goes grants
      (fun visited after => Drains builder after.work [] after ∧ visited = after.work.length)
      ((do
        queueRoots grants
        drain grants builder (builder.nodes.length + 1 + spare) 0 0 :
          Action Walk BuildError Nat) walk) := by
    apply (queueRoots_goes counted).bind
    intro _ middle drains
    have enough : builder.nodes.length <
        builder.nodes.length + 1 + spare + ([] : List Nat).length := by
      rw [List.length_nil]
      omega
    exact drain_goes here _ enough drains
  rw [← bind_assoc, Action.bind_run]
  revert gone
  cases (queueRoots grants >>= fun _ =>
      drain grants builder (builder.nodes.length + 1 + spare) 0 0) walk with
  | ok visited after =>
      rintro ⟨drains, rfl⟩
      dsimp only
      have nodup := drains.draining.nodup
      split
      · rename_i short
        exact ⟨nodup, .inl ⟨rfl, drains.draining.cyclic short⟩⟩
      · rename_i all
        exact ⟨nodup, drains.draining.acyclic (not_not.mp all), counted.fits⟩
  | fail error after =>
      rintro ⟨refused, nodup⟩
      exact ⟨nodup, .inr (.inr refused)⟩
  | illegal => exact id

/-- The check once its counts are allocated. -/
theorem count_decides (here : ∀ entry ∈ builder.nodes, builder.Local entry) (spare : Nat)
    (empty : walk.work = []) :
    Decides grants builder ((do
      Action.modify fun walk => { walk with incoming := List.replicate builder.nodes.length 0 }
      countIncoming builder
      queueRoots grants
      let visited ← drain grants builder (builder.nodes.length + 1 + spare) 0 0
      if visited ≠ builder.nodes.length then Action.fail invalidNodeReference
      else return () : Action Walk BuildError Unit) walk) := by
  have zero : Counted builder []
      { walk with incoming := List.replicate builder.nodes.length 0 } := by
    refine ⟨List.length_replicate, fun node inside => ?_, fun _ _ => Nat.zero_le _, empty⟩
    exact (List.getElem?_replicate ..).trans (if_pos inside)
  have counts := countIncoming_counts builder.nodes zero here
  rw [List.nil_append, ← allTargets_eq] at counts
  rw [Action.bind_run, Action.modify_run]
  dsimp only
  rw [Action.bind_run, countIncoming]
  revert counts
  cases Action.forEach _ builder.nodes _ with
  | ok value after => exact visit_decides here spare
  | fail error after =>
      rintro ⟨same, work, node, inside, many⟩
      refine ⟨work ▸ List.nodup_nil, .inr (.inl ⟨same, fun fits => ?_⟩)⟩
      exact Nat.not_le_of_lt many (fits node inside)
  | illegal => exact id

/-- Every way the check ends, where the links are local. -/
theorem validateAcyclic_decides (checked : validateLocalTopology builder = .ok ()) (spare : Nat) :
    Decides grants builder
      (validateAcyclic grants builder (builder.nodes.length + 1 + spare) {}) := by
  have here := validateLocalTopology_local checked
  have fresh : ∀ requested, ({ requested } : Walk).work = [] := fun _ => rfl
  rw [validateAcyclic, Action.bind_run, Action.when]
  by_cases none : builder.nodes = []
  · rw [if_neg (not_not.mpr none)]
    exact count_decides here spare (fresh 0)
  · rw [if_pos none, allocate]
    cases granted : grants 0 with
    | true => exact count_decides here spare (fresh 1)
    | false => exact ⟨List.nodup_nil, .inr (.inr ⟨rfl, 0, granted⟩)⟩

/-- `validateAcyclic` ends on every graph whose links are local and queues no node twice.  Where
the allocator grants its requests it accepts exactly the graphs in which no node reaches itself and
whose links to each node are at most `u32Max`; it gives an error for no other reason. -/
theorem validateAcyclic_exact (grants : Nat → Bool) (builder : Builder) (spare : Nat)
    (checked : validateLocalTopology builder = .ok ()) :
    Decides grants builder
        (validateAcyclic grants builder (builder.nodes.length + 1 + spare) {}) ∧
      ((∀ request, grants request = true) →
        ((∃ after, validateAcyclic grants builder (builder.nodes.length + 1 + spare) {} =
            .ok () after) ↔
          builder.NoCycle ∧ builder.CountsFit)) := by
  have decides : Decides grants builder
      (validateAcyclic grants builder (builder.nodes.length + 1 + spare) {}) :=
    validateAcyclic_decides checked spare
  refine ⟨decides, fun granted => ?_⟩
  revert decides
  cases validateAcyclic grants builder (builder.nodes.length + 1 + spare) {} with
  | ok value after =>
      rintro ⟨-, both⟩
      exact iff_of_true ⟨after, rfl⟩ both
  | fail error after =>
      rintro ⟨-, wrong⟩
      refine iff_of_false (fun ⟨_, same⟩ => nomatch same) fun both => ?_
      rcases wrong with ⟨-, cycle⟩ | ⟨-, many⟩ | ⟨-, request, refused⟩
      · exact cycle both.1
      · exact many both.2
      · rw [granted request] at refused
        cases refused
  | illegal => exact False.elim

/-- A shared subtree: two extensions of one branch lead to the same branch of a leaf. -/
def diamond : Builder where
  nodes := [⟨.branch, 0⟩, ⟨.extension, 3⟩, ⟨.extension, 3⟩, ⟨.branch, 1⟩, ⟨.leaf, 0⟩]
  branches := [⟨[⟨1⟩, ⟨2⟩] ++ List.replicate 14 .empty, rfl⟩, ⟨⟨4⟩ :: List.replicate 15 .empty, rfl⟩]
  fits := by decide

theorem validateAcyclic_exact_diamond :
    validateLocalTopology diamond = .ok () ∧ diamond.NoCycle ∧ diamond.CountsFit :=
  ⟨by decide, ((validateAcyclic_exact (fun _ => true) diamond 0 (by decide)).2 fun _ => rfl).mp
    ⟨⟨[0, 0, 0, 0, 0], [0, 1, 2, 3, 4], 6⟩, by decide⟩⟩

/-! ## A crowded graph -/

section Star

variable {count : Nat}

/-- Branches whose links all lead to one leaf. -/
def star (count : Nat) (fits : count + 1 ≤ Link.unheld.raw) : Builder where
  nodes := ⟨.leaf, 0⟩ :: (List.range count).map fun place => ⟨.branch, place⟩
  branches := List.replicate count ⟨List.replicate 16 ⟨0⟩, List.length_replicate⟩
  fits := by
    rw [List.length_cons, List.length_map, List.length_range]
    exact fits

variable {fits : count + 1 ≤ Link.unheld.raw}

theorem star_length : (star count fits).nodes.length = count + 1 := by
  rw [star, List.length_cons, List.length_map, List.length_range]

theorem star_links {place : Nat} (inside : place < count) :
    linksOf (star count fits) ⟨.branch, place⟩ = .ok (List.replicate 16 ⟨0⟩) := by
  have held : (star count fits).branches[place]? =
      some ⟨List.replicate 16 ⟨0⟩, List.length_replicate⟩ := by
    rw [star, List.getElem?_replicate, if_pos inside]
  rw [linksOf]
  dsimp only
  rw [branchData, if_neg (not_not.mpr rfl)]
  dsimp only
  rw [held]
  rfl

theorem star_entry {entry : Node} (member : entry ∈ (star count fits).nodes) :
    entry = ⟨.leaf, 0⟩ ∨ ∃ place, place < count ∧ entry = ⟨.branch, place⟩ := by
  rcases List.mem_cons.mp member with rfl | later
  · exact .inl rfl
  · obtain ⟨place, inside, rfl⟩ := List.mem_map.mp later
    exact .inr ⟨place, List.mem_range.mp inside, rfl⟩

theorem checkEach_all {ι : Type} {check : ι → Checked BuildError Unit} {items : List ι}
    (each : ∀ item ∈ items, check item = .ok ()) : checkEach check items = .ok () := by
  induction items with
  | nil => rfl
  | cons first items ih =>
      rw [checkEach, each first List.mem_cons_self, Checked.ok_bind]
      exact ih fun item member => each item (List.mem_cons_of_mem first member)

theorem star_local : validateLocalTopology (star count fits) = .ok () := by
  apply checkEach_all
  intro entry member
  rcases star_entry member with rfl | ⟨place, inside, rfl⟩
  · rfl
  · rw [checkNode, star_links inside, Checked.ok_bind, if_neg (fun same => nomatch same)]
    apply checkEach_all
    intro child held
    obtain rfl := List.eq_of_mem_replicate held
    have held : ¬0 ≥ (star count fits).nodes.length := by
      rw [star_length]
      omega
    have passes : checkChild (star count fits) ⟨0⟩ = (if 0 ≥ (star count fits).nodes.length then
        .fail invalidNodeReference else .ok ()) := rfl
    rw [passes, if_neg held]

theorem star_targets (node : Nat) :
    (star count fits).targets node = if 0 < node ∧ node ≤ count then List.replicate 16 0 else [] := by
  cases node with
  | zero => rfl
  | succ place =>
      by_cases inside : place < count
      · have held : (star count fits).nodes[place + 1]? = some ⟨.branch, place⟩ := by
          rw [star, List.getElem?_cons_succ, List.getElem?_map, List.getElem?_range inside]
          rfl
        rw [targets_eq held (star_links inside), if_pos ⟨Nat.succ_pos _, inside⟩]
        rfl
      · have past : (star count fits).nodes[place + 1]? = none := by
          apply List.getElem?_eq_none
          rw [star_length]
          omega
        rw [targets, past, if_neg (by omega)]

/-- Every link leads from a branch to the leaf. -/
theorem star_linked {parent child : Nat}
    (linked : Linked (star count fits).targets (star count fits).nodes.length parent child) :
    parent ≠ 0 ∧ child = 0 := by
  obtain ⟨-, member⟩ := linked
  rw [star_targets] at member
  split at member
  · rename_i branch
    exact ⟨Nat.ne_of_gt branch.1, List.eq_of_mem_replicate member⟩
  · exact absurd member List.not_mem_nil

theorem star_noCycle : (star count fits).NoCycle := by
  intro node reaches
  obtain ⟨next, first, -⟩ := Relation.TransGen.head'_iff.mp reaches
  obtain ⟨before, -, last⟩ := Relation.TransGen.tail'_iff.mp reaches
  exact (star_linked first).1 (star_linked last).2

theorem star_count : (star count fits).allTargets.count 0 = 16 * count := by
  have first : ∀ bound, bound ≤ count →
      ((List.range (bound + 1)).flatMap (star count fits).targets).count 0 = 16 * bound := by
    intro bound within
    induction bound with
    | zero => rfl
    | succ bound ih =>
        rw [List.range_succ, List.flatMap_append, List.count_append, ih (Nat.le_of_succ_le within),
          List.flatMap_singleton, star_targets, if_pos ⟨Nat.succ_pos _, within⟩,
          List.count_replicate_self, Nat.mul_succ]
  rw [allTargets, star_length]
  exact first count (Nat.le_refl _)

/-- The links to the leaf overflow their count. -/
theorem star_refused (many : u32Max < 16 * count) (grants : Nat → Bool) (spare : Nat) :
    ¬∃ after, validateAcyclic grants (star count fits) (count + 2 + spare) {} = .ok () after := by
  rintro ⟨after, accepted⟩
  have decides : Decides grants (star count fits) _ := validateAcyclic_decides star_local spare
  rw [star_length, accepted] at decides
  have within := decides.2.2 0 (by rw [star_length]; exact Nat.succ_pos _)
  rw [star_count] at within
  exact Nat.not_le_of_lt many within

end Star

/-- `2 ^ 28` branches with all their links to one leaf. -/
def crowded : Builder := star (2 ^ 28) (by decide)

/-- A graph without a cycle that is not accepted. -/
theorem validateAcyclic_refuses_crowded :
    validateLocalTopology crowded = .ok () ∧ crowded.NoCycle ∧
      ¬∃ after, validateAcyclic (fun _ => true) crowded (2 ^ 28 + 2 + 0) {} = .ok () after := by
  have many : u32Max < 16 * 2 ^ 28 := by decide
  rw [crowded]
  exact ⟨star_local, star_noCycle, star_refused many _ 0⟩

end EvmZig.Mpt.Catalog.Builder
