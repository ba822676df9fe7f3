import EvmZig.Mpt.Proof

/-!
# The node graph of a catalog (`pkg/mpt/src/catalog.zig`)

A builder holds decoded nodes and the links of its branches.  Before it is
sealed, each link has to lead to a node it holds, and no node may reach itself.
-/

set_option autoImplicit false

namespace EvmZig.Mpt.Catalog

open Zig

def u32Max : Nat := 2 ^ 32 - 1

/-- `Link`: the last two values stand for no child and for one that is not held. -/
structure Link where
  raw : Nat
  deriving DecidableEq, Repr

def Link.empty : Link := ⟨u32Max⟩

/-- `Link.@"opaque"`. -/
def Link.unheld : Link := ⟨u32Max - 1⟩

def Link.node (self : Link) : Option Nat :=
  if self.raw ≥ Link.unheld.raw then none else some self.raw

inductive Kind where
  | leaf
  | extension
  | branch
  deriving DecidableEq, Repr

/-- `Node`: the payload of an extension is its link, that of a branch a place in `branches`. -/
structure Node where
  kind : Kind
  payload : Nat
  deriving DecidableEq, Repr

def Node.extensionChild (self : Node) : Option Link :=
  if self.kind ≠ .extension then none else some ⟨self.payload⟩

structure Branch where
  links : List Link
  sixteen : links.length = 16

/-- `Builder`; `appendNode` stops before an identifier could be mistaken for another link. -/
structure Builder where
  nodes : List Node
  branches : List Branch
  fits : nodes.length ≤ Link.unheld.raw

/-- `BuildError`. -/
abbrev BuildError : Type := LookupError

def invalidNodeReference : BuildError := .codec .invalidNodeReference

namespace Builder

variable (grants : Nat → Bool) (self : Builder)

def branchData (entry : Node) : Checked BuildError Branch :=
  if entry.kind ≠ .branch then .fail invalidNodeReference
  else
    match self.branches[entry.payload]? with
    | some branch => .ok branch
    | none => .fail invalidNodeReference

/-- The links that each of the three loops goes through. -/
def linksOf (entry : Node) : Checked BuildError (List Link) :=
  match entry.kind with
  | .leaf => .ok []
  | .extension =>
      match entry.extensionChild with
      | some child => .ok [child]
      | none => .fail invalidNodeReference
  | .branch => do return (← branchData self entry).links

/-! ## Local topology -/

def checkExtension (child : Link) : Checked BuildError Unit :=
  match child.node with
  | none => .ok ()
  | some id =>
      match self.nodes[id]? with
      | none => .fail invalidNodeReference
      | some target => if target.kind ≠ .branch then .fail (.codec .nonCanonicalNode) else .ok ()

def checkChild (child : Link) : Checked BuildError Unit :=
  match child.node with
  | none => .ok ()
  | some id => if id ≥ self.nodes.length then .fail invalidNodeReference else .ok ()

def checkEach {ι : Type} (check : ι → Checked BuildError Unit) : List ι → Checked BuildError Unit
  | [] => .ok ()
  | item :: items => do
      check item
      checkEach check items

def checkNode (entry : Node) : Checked BuildError Unit := do
  let links ← linksOf self entry
  if entry.kind = .extension then checkEach (checkExtension self) links
  else checkEach (checkChild self) links

def validateLocalTopology : Checked BuildError Unit := checkEach (checkNode self) self.nodes

/-! ## The walk -/

/-- The counts and the queue of `validateAcyclic`, beside the allocations asked for. -/
structure Walk where
  incoming : List Nat := []
  work : List Nat := []
  requested : Nat := 0
  deriving DecidableEq, Repr

/-- An allocation, which the allocator grants or refuses. -/
def allocate : Action Walk BuildError Unit := fun walk =>
  if grants walk.requested then .ok () { walk with requested := walk.requested + 1 }
  else .fail .outOfMemory { walk with requested := walk.requested + 1 }

/-- `work.append`, where growing the queue can be refused. -/
def append (id : Nat) : Action Walk BuildError Unit := do
  allocate grants
  Action.modify fun walk => { walk with work := walk.work ++ [id] }

def addIncoming (id : Nat) : Action Walk BuildError Unit := do
  let value ← (← Action.get).incoming[id]?
  if value + 1 > u32Max then Action.fail .resourceLimitExceeded
  else Action.modify fun walk => { walk with incoming := walk.incoming.set id (value + 1) }

def addLink (link : Link) : Action Walk BuildError Unit :=
  match link.node with
  | none => return ()
  | some id => addIncoming id

def removeIncoming (link : Link) : Action Walk BuildError Unit :=
  match link.node with
  | none => return ()
  | some id => do
      let value ← (← Action.get).incoming[id]?
      if value = 0 then Action.fail invalidNodeReference
      else
        Action.modify fun walk => { walk with incoming := walk.incoming.set id (value - 1) }
        Action.when (value - 1 = 0) (append grants id)

/-- The loop over the queue; `fuel` bounds its rounds. -/
def drain : (fuel queueIndex visited : Nat) → Action Walk BuildError Nat
  | 0, _, _ => Action.illegal
  | fuel + 1, queueIndex, visited => do
      match (← Action.get).work[queueIndex]? with
      | none => return visited
      | some id =>
          let entry ← self.nodes[id]?
          let links ← linksOf self entry
          Action.forEach (removeIncoming grants) links
          drain fuel (queueIndex + 1) (visited + 1)

def countIncoming : Action Walk BuildError Unit :=
  Action.forEach (fun entry => do
    let links ← linksOf self entry
    Action.forEach addLink links) self.nodes

/-- Queue the nodes that no link leads to. -/
def queueRoots : Action Walk BuildError Unit := do
  let incoming ← Action.read Walk.incoming
  Action.modify fun walk => { walk with work := [] }
  Action.forEach (append grants)
    ((List.range incoming.length).filter fun index => decide (incoming.getD index 0 = 0))

def validateAcyclic (fuel : Nat) : Action Walk BuildError Unit := do
  Action.when (self.nodes ≠ []) (allocate grants)
  Action.modify fun walk => { walk with incoming := List.replicate self.nodes.length 0 }
  countIncoming self
  queueRoots grants
  let visited ← drain grants self fuel 0 0
  if visited ≠ self.nodes.length then Action.fail invalidNodeReference else return ()

end Builder

end EvmZig.Mpt.Catalog
