import EvmZig.Ssz.TreeWalk

/-!
# The walker reports exactly the sparse tree

A walk is a list of nodes to report and a root to return.  The walker's list is
the post-order of the sparse tree and its root that of the full tree over the
chunks padded with zeros.
-/

set_option autoImplicit false

namespace EvmZig.Ssz

open Zig Lib

namespace TreeWalker

variable {σ ε : Type} {self : TreeWalker σ ε}

/-- The stored table is that of the walk's own hash. -/
def Tabled (self : TreeWalker σ ε) : Prop :=
  self.zeroRoots = generateZeroRoots self.hash64 lastZeroRoot

abbrev Nodes : Type := List (TreePath × TreeNode)

def report (self : TreeWalker σ ε) (nodes : Nodes) : Action σ ε Unit :=
  Action.forEach (fun node => self.visit node.1 node.2) nodes

/-- The walk reports the nodes and returns the value; an error of the visitor
ends it at the node it was raised for. -/
def Visits {α : Type} (self : TreeWalker σ ε) (walk : Action σ ε α) (nodes : Nodes) (value : α) :
    Prop :=
  walk = (do self.report nodes; return value)

theorem report_append (nodes more : Nodes) :
    self.report (nodes ++ more) = (do self.report nodes; self.report more) := by
  induction nodes with
  | nil => simp [report, Action.forEach]
  | cons node nodes ih =>
      simp only [report, List.cons_append, Action.forEach, bind_assoc] at ih ⊢
      rw [ih]

section Visits

variable {α β : Type} {walk : Action σ ε α} {nodes more : Nodes} {value : α} {result : β}

theorem Visits.bind {next : α → Action σ ε β} (first : self.Visits walk nodes value)
    (second : self.Visits (next value) more result) :
    self.Visits (walk >>= next) (nodes ++ more) result := by
  unfold Visits at first second ⊢
  rw [first, report_append]
  simp only [bind_assoc, pure_bind, second]

theorem Visits.map (first : self.Visits walk nodes value) (transform : α → β) :
    self.Visits (do let value ← walk; return transform value) nodes (transform value) := by
  unfold Visits at first ⊢
  rw [first]
  simp only [bind_assoc, pure_bind]

theorem visits_one (path : TreePath) (node : TreeNode) :
    self.Visits (do self.visit path node; return node.root) [(path, node)] node.root := by
  simp [Visits, report, Action.forEach]

end Visits

theorem leaf_visits (path : TreePath) (root : Root) :
    self.Visits (self.leaf path root) [(path, ⟨root, .leaf⟩)] root :=
  visits_one path ⟨root, .leaf⟩

theorem branch_visits (path : TreePath) (left right : Root) :
    self.Visits (self.branch path left right)
      [(path, ⟨hashPair self.hash64 left right, .branch⟩)] (hashPair self.hash64 left right) :=
  visits_one path ⟨hashPair self.hash64 left right, .branch⟩

/-! ## The sparse tree -/

/-- The chunks of a source, and what is reported for each of them. -/
structure Content where
  count : Nat
  chunk : Nat → Root
  nodes : Nat → TreePath → Nodes
  fits : count < 2 ^ 64

/-- The chunks, padded with zero chunks for ever. -/
def Content.padded (content : Content) (index : Nat) : Root :=
  if index < content.count then content.chunk index else zero

structure Reads (walker : TreeWalker σ ε) (source : Source σ ε) (content : Content) : Prop where
  count : source.count = pure content.count
  leaf : ∀ index < content.count, ∀ path,
    walker.Visits (source.leaf index path) (content.nodes index path) (content.chunk index)

/-- A blank subtree of a depth. -/
def blankNode (hash64 : List UInt8 → Root) (depth : Nat) : TreeNode where
  root := blankRoot (hashPair hash64) zero depth
  kind := .zeroSubtree depth

section Sparse

variable (hash64 : List UInt8 → Root) (content : Content)

/-- The sparse tree in post-order: one node for each subtree past the chunks. -/
def sparseNodes : (depth start : Nat) → TreePath → Nodes
  | 0, start, path =>
      if content.count ≤ start then [(path, blankNode hash64 0)] else content.nodes start path
  | depth + 1, start, path =>
      if content.count ≤ start then [(path, blankNode hash64 (depth + 1))]
      else
        sparseNodes depth start (path.child .left) ++
          sparseNodes depth (start + 2 ^ depth) (path.child .right) ++
            [(path, ⟨treeRoot (hashPair hash64) content.padded (depth + 1) start, .branch⟩)]

end Sparse

section Walk

variable {source : Source σ ε} {content : Content} {zeroHashes : ZeroHashes}

theorem treeRoot_past {start : Nat} (past : content.count ≤ start) (depth : Nat) :
    treeRoot (hashPair self.hash64) content.padded depth start =
      blankRoot (hashPair self.hash64) zero depth :=
  treeRoot_blank _ (fun _ above => if_neg (Nat.not_lt.mpr (Nat.le_trans past above))) depth

theorem sparseNodes_past {start : Nat} (past : content.count ≤ start) (depth : Nat)
    (path : TreePath) : sparseNodes self.hash64 content depth start path =
      [(path, blankNode self.hash64 depth)] := by
  cases depth <;> exact if_pos past

/-- Past the chunks the table answers with the root of the full subtree. -/
theorem blank_visits (tabled : self.Tabled) (sound : zeroHashes.Sound self.hash64) {start : Nat}
    (past : content.count ≤ start) (depth : Nat) (path : TreePath) :
    ∃ after : ZeroHashes, after.Sound self.hash64 ∧
      self.Visits (self.blank zeroHashes path depth)
        (sparseNodes self.hash64 content depth start path)
        (treeRoot (hashPair self.hash64) content.padded depth start, after) := by
  obtain ⟨root, kept⟩ := sound.rootAt tabled depth
  refine ⟨_, kept, ?_⟩
  rw [sparseNodes_past past, treeRoot_past past]
  have visited : self.Visits (self.zeroSubtree path depth (blankNode self.hash64 depth).root)
      [(path, blankNode self.hash64 depth)] (blankNode self.hash64 depth).root :=
    visits_one path (blankNode self.hash64 depth)
  rw [blank, root]
  exact visited.map fun root => (root, _)

theorem rightStart_within {start depth : Nat} (bounded : start + 2 ^ depth < 2 ^ 64) :
    rightStart start depth = some (start + 2 ^ depth) := by
  have shallow : depth < 64 :=
    (Nat.pow_lt_pow_iff_right (by decide)).mp (Nat.lt_of_le_of_lt (Nat.le_add_left _ _) bounded)
  rw [rightStart, if_neg (Nat.not_le.mpr shallow), addChecked, if_pos bounded]

theorem rightStart_beyond {start depth : Nat} (beyond : ¬ start + 2 ^ depth < 2 ^ 64) :
    rightStart start depth = none := by
  rw [rightStart, addChecked, if_neg beyond, ite_self]

theorem merkleizeSourceDepthInto_visits (tabled : self.Tabled) (reads : self.Reads source content)
    (sound : zeroHashes.Sound self.hash64) (depth start : Nat) (path : TreePath) :
    ∃ after : ZeroHashes, after.Sound self.hash64 ∧
      self.Visits (self.merkleizeSourceDepthInto source content.count depth start zeroHashes path)
        (sparseNodes self.hash64 content depth start path)
        (treeRoot (hashPair self.hash64) content.padded depth start, after) := by
  induction depth generalizing start zeroHashes path with
  | zero =>
      rw [merkleizeSourceDepthInto]
      by_cases past : start ≥ content.count
      · rw [if_pos past]
        exact blank_visits tabled sound past 0 path
      · have inside := Nat.lt_of_not_le past
        refine ⟨zeroHashes, sound, ?_⟩
        rw [if_neg past, sparseNodes, if_neg past, treeRoot, Content.padded, if_pos inside]
        exact (reads.leaf start inside path).map fun root => (root, zeroHashes)
  | succ depth ih =>
      rw [merkleizeSourceDepthInto]
      by_cases past : start ≥ content.count
      · rw [if_pos past]
        exact blank_visits tabled sound past (depth + 1) path
      · obtain ⟨middle, middleSound, left⟩ := ih sound start (path.child .left)
        rw [if_neg past, sparseNodes, if_neg past, List.append_assoc, treeRoot]
        have branch := @branch_visits σ ε self path
        by_cases bounded : start + 2 ^ depth < 2 ^ 64
        · obtain ⟨after, afterSound, right⟩ := ih middleSound (start + 2 ^ depth)
            (path.child .right)
          refine ⟨after, afterSound, ?_⟩
          rw [rightStart_within bounded]
          exact left.bind (right.bind ((branch _ _).map fun root => (root, after)))
        · -- The first index of the right half leaves usize and so lies past the chunks.
          have beyond : content.count ≤ start + 2 ^ depth := by
            have fits := content.fits
            omega
          obtain ⟨after, afterSound, right⟩ := blank_visits tabled middleSound beyond depth
            (path.child .right)
          refine ⟨after, afterSound, ?_⟩
          rw [rightStart_beyond bounded]
          exact left.bind (right.bind ((branch _ _).map fun root => (root, after)))

end Walk

/-! ## Progressive trees -/

section Progressive

variable (hash64 : List UInt8 → Root) (content : Content)

/-- Groups of `4 ^ group` chunks, each under a perfect tree of its own, down a
spine to the right. -/
def progressiveRoot (group start : Nat) : Root :=
  if content.count ≤ start then zero
  else
    hashPair hash64 (treeRoot (hashPair hash64) content.padded (2 * group) start)
      (progressiveRoot (group + 1) (start + 4 ^ group))
  termination_by content.count - start
  decreasing_by
    have := Nat.pow_pos (n := group) (show 0 < 4 by decide)
    omega

/-- The progressive tree in post-order. -/
def progressiveNodes (group start : Nat) (path : TreePath) : Nodes :=
  if content.count ≤ start then [(path, blankNode hash64 0)]
  else
    sparseNodes hash64 content (2 * group) start (path.child .left) ++
      progressiveNodes (group + 1) (start + 4 ^ group) (path.child .right) ++
        [(path, ⟨progressiveRoot hash64 content group start, .branch⟩)]
  termination_by content.count - start
  decreasing_by
    have := Nat.pow_pos (n := group) (show 0 < 4 by decide)
    omega

end Progressive

section ProgressiveWalk

variable {source : Source σ ε} {content : Content} {zeroHashes : ZeroHashes}

theorem four_pow (group : Nat) : 4 ^ group = 2 ^ (2 * group) := (Nat.pow_mul 2 2 group).symm

/-- The groups before one hold a third of its leaves; while chunks are left the
next start and the next size stay within `usize`. -/
theorem group_fits {group start : Nat} (position : 3 * start + 1 = 4 ^ group)
    (inside : start < content.count) (bounded : 3 * content.count < 2 ^ 64) :
    start + 4 ^ group < 2 ^ 64 := by
  have below : 4 ^ group < 4 ^ 32 := by omega
  have group := Nat.pow_le_pow_right (show 0 < 4 by decide)
    (Nat.le_of_lt_succ ((Nat.pow_lt_pow_iff_right (show 1 < 4 by decide)).mp below))
  omega

theorem merkleizeProgressiveSourceRangeInto_visits
    (tabled : self.Tabled) (reads : self.Reads source content)
    (bounded : 3 * content.count < 2 ^ 64) {groups group start : Nat} (path : TreePath)
    (sound : zeroHashes.Sound self.hash64)
    (position : 3 * start + 1 = 4 ^ group) (rest : groups + group = 33) (reached : group < 33) :
    self.Visits
      (self.merkleizeProgressiveSourceRangeInto source content.count groups start (4 ^ group)
        zeroHashes path)
      (progressiveNodes self.hash64 content group start path)
      (progressiveRoot self.hash64 content group start) := by
  induction groups generalizing group start path zeroHashes with
  | zero => omega
  | succ groups ih =>
      rw [merkleizeProgressiveSourceRangeInto, progressiveNodes, progressiveRoot]
      by_cases past : content.count ≤ start
      · rw [if_pos past, if_pos past, if_pos past]
        exact visits_one path (blankNode self.hash64 0)
      · have inside := Nat.lt_of_not_le past
        have log : Nat.log 2 (4 ^ group) = 2 * group := by
          rw [four_pow, Nat.log_pow (by decide)]
        have asserted : (Action.assert fun _ => 2 ^ (2 * group) = 4 ^ group : Action σ ε Unit) =
            pure () := by
          funext receiver
          exact if_pos (four_pow group).symm
        have next := group_fits position inside bounded
        obtain ⟨middle, middleSound, leftVisits⟩ := merkleizeSourceDepthInto_visits tabled reads
          sound (2 * group) start (path.child .left)
        rw [if_neg past, if_neg past, if_neg past, log, asserted, pure_bind, List.append_assoc,
          addChecked, if_pos next]
        by_cases last : content.count ≤ start + 4 ^ group
        · have right := @visits_one σ ε self (path.child .right) (blankNode self.hash64 0)
          rw [progressiveNodes, progressiveRoot, if_pos last, if_pos last]
          simp only [ge_iff_le, if_pos last]
          exact leftVisits.bind (right.bind (branch_visits path _ _))
        · have nextPosition : 3 * (start + 4 ^ group) + 1 = 4 ^ (group + 1) := by omega
          have below : 4 ^ (group + 1) < 4 ^ 32 := by omega
          have more := (Nat.pow_lt_pow_iff_right (show 1 < 4 by decide)).mp below
          have right := ih (path.child .right) middleSound nextPosition (by omega) (by omega)
          have nextFits : 4 ^ group * 4 < 2 ^ 64 := by omega
          simp only [ge_iff_le, if_neg last, mulChecked, if_pos nextFits]
          exact leftVisits.bind (right.bind (branch_visits path _ _))

end ProgressiveWalk

/-! ## Declared depths -/

theorem shiftDepth_eq (remaining : Nat) : shiftDepth remaining = remaining.size := by
  induction remaining using Nat.strong_induction_on with
  | _ remaining ih =>
      rw [shiftDepth]
      by_cases none : remaining = 0
      · rw [if_pos none, none, Nat.size_zero]
      · rw [if_neg none, Nat.shiftRight_one,
          ih _ (Nat.div_lt_self (Nat.pos_of_ne_zero none) (by decide)), ← Nat.div2_val]
        conv_rhs => rw [← Nat.bit_bodd_div2 remaining]
        exact (Nat.size_bit (by rwa [Nat.bit_bodd_div2])).symm

/-- The smallest depth at which the capacity fits. -/
theorem declaredTreeDepth_eq (capacity : Nat) :
    declaredTreeDepth capacity = Nat.clog 2 capacity := by
  unfold declaredTreeDepth
  by_cases small : capacity ≤ 1
  · rw [if_pos small, Nat.clog_of_right_le_one small]
  · rw [if_neg small, shiftDepth_eq]
    apply eq_of_forall_ge_iff
    intro depth
    rw [Nat.size_le, Nat.clog_le_iff_le_pow (by decide)]
    omega

theorem exceededBy_eq {actual : Nat} (fits : actual < 2 ^ 64) (limit : Nat) :
    exceededBy actual limit = decide (limit < actual) := by
  unfold exceededBy
  have largest : usizeMax = 2 ^ 64 - 1 := rfl
  split
  · symm
    rw [decide_eq_false_iff_not]
    omega
  · rfl

/-! ## Whole walks -/

section Whole

variable {source : Source σ ε} {content : Content}

/-- A source of any declared capacity, also beyond `usize`: the root is that of
the perfect tree over the padded chunks, the nodes are those of the sparse tree. -/
theorem merkleizeSource_exact (tabled : self.Tabled) (reads : self.Reads source content)
    (limit : Nat) (path : TreePath) :
    self.merkleizeSource source limit path =
      if limit < content.count then Action.fail (self.codec .listLimitExceeded)
      else do
        self.report (sparseNodes self.hash64 content (Nat.clog 2 limit) 0 path)
        return treeRoot (hashPair self.hash64) content.padded (Nat.clog 2 limit) 0 := by
  rw [merkleizeSource, reads.count, pure_bind, exceededBy_eq content.fits, declaredTreeDepth_eq]
  by_cases exceeded : limit < content.count
  · rw [if_pos (decide_eq_true exceeded), if_pos exceeded]
  · rw [if_neg (by simpa using exceeded), if_neg exceeded]
    obtain ⟨after, -, visits⟩ := merkleizeSourceDepthInto_visits tabled reads
      (ZeroHashes.init_sound tabled) (Nat.clog 2 limit) 0 path
    exact visits.map Prod.fst

/-- A progressive source, up to the size at which its groups leave `usize`. -/
theorem merkleizeProgressiveSource_exact (tabled : self.Tabled)
    (reads : self.Reads source content) (bounded : 3 * content.count < 2 ^ 64) (path : TreePath) :
    self.merkleizeProgressiveSource source path = (do
      self.report (progressiveNodes self.hash64 content 0 0 path)
      return progressiveRoot self.hash64 content 0 0) := by
  rw [merkleizeProgressiveSource, reads.count, pure_bind]
  exact merkleizeProgressiveSourceRangeInto_visits tabled reads bounded path
    (ZeroHashes.init_sound tabled)
    (show 3 * 0 + 1 = 4 ^ 0 from rfl) rfl (by decide)

end Whole

/-- The content of a root source. -/
def Content.ofChunks (chunks : List Root) (fits : chunks.length < 2 ^ 64) : Content where
  count := chunks.length
  chunk := (chunks.getD · zero)
  nodes index path := [(path, ⟨chunks.getD index zero, .leaf⟩)]
  fits := fits

theorem rootSource_reads {chunks : List Root} (fits : chunks.length < 2 ^ 64) :
    self.Reads (self.rootSource chunks) (.ofChunks chunks fits) where
  count := rfl
  leaf index inside path := by
    have found : chunks[index]? = some (chunks.getD index zero) := by
      rw [List.getD_eq_getElem?_getD, List.getElem?_eq_getElem inside, Option.getD_some]
    rw [rootSource]
    dsimp only
    rw [found]
    exact leaf_visits path _

def sumHash (input : List UInt8) : Root := ⟨List.replicate 32 (input.foldl (· + ·) 1), rfl⟩

/-- A walker that keeps what it is shown, over a hash that adds up its input, with
the table of that hash. -/
def recorder : TreeWalker Nodes SszError where
  hash64 := sumHash
  zeroRoots := generateZeroRoots sumHash lastZeroRoot
  visit path node nodes := .ok () (nodes ++ [(path, node)])
  codec := id

theorem recorder_tabled : recorder.Tabled := rfl

def threeChunks : Content := .ofChunks [zero, zero, zero] (by decide)

theorem merkleizeSource_exact_vast :
    recorder.merkleizeSource (recorder.rootSource [zero, zero, zero]) (2 ^ 65) [] = (do
      recorder.report (sparseNodes recorder.hash64 threeChunks (Nat.clog 2 (2 ^ 65)) 0 [])
      return treeRoot (hashPair recorder.hash64) threeChunks.padded (Nat.clog 2 (2 ^ 65)) 0) :=
  (merkleizeSource_exact recorder_tabled (rootSource_reads (by decide)) (2 ^ 65) []).trans
  (if_neg (by decide))

theorem merkleizeProgressiveSource_exact_three :
    recorder.merkleizeProgressiveSource (recorder.rootSource [zero, zero, zero]) [] = (do
      recorder.report (progressiveNodes recorder.hash64 threeChunks 0 0 [])
      return progressiveRoot recorder.hash64 threeChunks 0 0) :=
  merkleizeProgressiveSource_exact recorder_tabled (rootSource_reads (by decide)) (by decide) []

end TreeWalker

end EvmZig.Ssz
