import EvmZig.Mpt.Decoders
import EvmZig.Mpt.Proof

/-!
# Cached lookups

A cache holds the full decoding of records of the index it was last used with.
A lookup reads of a branch no more than the lookup decoder would show it, so it
answers from the cache as it answers without one.
-/

set_option autoImplicit false

namespace EvmZig.Mpt

open Zig

/-! ## Decoding twice -/

theorem decodeFields_required {mode : BranchMode} {items : List Rlp.Item}
    (seventeen : items.length = 17) : decodeFields true mode items = decodeBranch mode items := by
  rcases items with _ | ⟨first, _ | ⟨second, _ | ⟨third, rest⟩⟩⟩
  · cases seventeen
  · cases seventeen
  · cases seventeen
  · simp only [decodeFields]
    rw [if_neg (fun short => short.2 seventeen), if_pos seventeen]

/-- A node that decodes is a branch or is refused where a branch is required. -/
theorem decode_required {encoded : Slice} {node : Node} (decoded : decode encoded false = .ok node) :
    decode encoded true =
      if LookupCache.isBranch node then .ok node else .fail .nonCanonicalNode := by
  rw [decode, decodeWithBranchMode] at decoded ⊢
  obtain ⟨item, parsed, decoded⟩ := Checked.bind_eq_ok.mp decoded
  obtain ⟨fields, opened, decoded⟩ := Checked.bind_eq_ok.mp decoded
  obtain ⟨items, collected, decoded⟩ := Checked.bind_eq_ok.mp decoded
  simp only [parsed, opened, collected, Checked.ok_bind]
  rcases decodeFields_eq_ok.mp decoded with ⟨first, second, short, rfl, _, rfl⟩ | ⟨seventeen, made⟩
  · cases short with
    | inl leaf => rfl
    | inr extension => rfl
  · obtain ⟨first, second, others, last, rfl, fourteen⟩ := exists_fields seventeen
    obtain ⟨_, _, _, _, _, _, _, _, _, _, _, rfl⟩ := (decodeBranch_eq_ok fourteen).mp made
    rw [decodeFields_required seventeen, made]
    rfl

theorem decode_of_required {encoded : Slice} {node : Node} (decoded : decode encoded true = .ok node) :
    decode encoded false = .ok node := by
  rw [decode, decodeWithBranchMode] at decoded ⊢
  obtain ⟨item, parsed, decoded⟩ := Checked.bind_eq_ok.mp decoded
  obtain ⟨fields, opened, decoded⟩ := Checked.bind_eq_ok.mp decoded
  obtain ⟨items, collected, decoded⟩ := Checked.bind_eq_ok.mp decoded
  simp only [parsed, opened, collected, Checked.ok_bind]
  unfold decodeFields at decoded ⊢
  split at decoded
  · cases decoded
  · rwa [if_neg (by simp)]

theorem decode_of {encoded : Slice} {requireBranch : Bool} {node : Node}
    (decoded : decode encoded requireBranch = .ok node) : decode encoded false = .ok node := by
  cases requireBranch with
  | false => exact decoded
  | true => exact decode_of_required decoded

/-! ## Caches -/

/-- The decoded nodes are those of the records of the index in use. -/
structure Faithful (witness : Nat → IndexData) (cache : LookupCache) : Prop where
  size : ∀ address, cache.index = some address →
    cache.slots.length = (witness address).records.length
  kept : ∀ address position entry : Nat, cache.index = some address →
    cache.slots[position]? = some (some entry) → ∃ (record : NodeRecord) (node : Node),
      (witness address).records[position]? = some record ∧ cache.entries[entry]? = some node ∧
        decode record.encoded false = .ok node

variable {witness : Nat → IndexData} {grants : Nat → Bool} {address : Nat} {cache : LookupCache}
  {index : IndexData}

theorem Faithful.asked (faithful : Faithful witness cache) (requested : Nat) :
    Faithful witness { cache with requested } :=
  ⟨faithful.size, faithful.kept⟩

/-- Some allocation failed. -/
def Refused (grants : Nat → Bool) (error : LookupError) : Prop :=
  error = .outOfMemory ∧ ∃ request, grants request = false

theorem prepareIndex_run (faithful : Faithful witness cache) :
    (∃ after, LookupCache.prepareIndex grants address (witness address) cache = .ok () after ∧
        Faithful witness after ∧ after.index = some address) ∨
      ∃ error after, LookupCache.prepareIndex grants address (witness address) cache =
        .fail error after ∧ Faithful witness after ∧ Refused grants error := by
  rw [LookupCache.prepareIndex]
  by_cases current : cache.index = some address
  · exact .inl ⟨cache, if_pos current, faithful, current⟩
  · rw [if_neg current, Action.bind_run, LookupCache.allocate]
    cases granted : grants cache.requested with
    | false =>
        exact .inr ⟨.outOfMemory, _, rfl, faithful.asked _, rfl, _, granted⟩
    | true =>
        refine .inl ⟨_, rfl, ⟨?_, ?_⟩, rfl⟩
        · rintro other ⟨⟩
          simp
        · intro other position entry _ stored
          simp [List.getElem?_replicate] at stored

/-- A node from the cache, against one decoded afresh. -/
def Served (witness : Nat → IndexData) (grants : Nat → Bool) (decoded : Checked CodecError Node) :
    Outcome LookupCache LookupError Node → Prop
  | .ok node after => Faithful witness after ∧ decoded = .ok node
  | .fail error after =>
      Faithful witness after ∧ (Refused grants error ∨ LookupCache.codec decoded = .fail error)
  | .illegal => decoded = .illegal

theorem fetch_served {ready : LookupCache} (sound : Faithful witness ready)
    (current : ready.index = some address) {position : Nat} {record : NodeRecord}
    (recordOf : (witness address).records[position]? = some record) (requireBranch : Bool) :
    Served witness grants (decode record.encoded requireBranch)
      (LookupCache.fetch grants position record.encoded requireBranch ready) := by
  have positionLt := (List.getElem?_eq_some_iff.mp recordOf).1
  have inside : position < ready.slots.length := by rwa [sound.size address current]
  have slotOf : ready.slots[position]? = some ready.slots[position] := List.getElem?_eq_getElem inside
  simp only [LookupCache.fetch, Action.bind_run, Action.read_run, slotOf, Action.liftM_some]
  cases stored : ready.slots[position] with
  | some entry =>
      rw [stored] at slotOf
      obtain ⟨record', node, recordOf', entryOf, decoded⟩ :=
        sound.kept address position entry current slotOf
      rw [recordOf] at recordOf'
      cases recordOf'
      simp only [Action.bind_run, Action.read_run, entryOf, Action.liftM_some]
      cases requireBranch with
      | false => exact ⟨sound, decoded⟩
      | true =>
          rw [decode_required decoded]
          by_cases branch : LookupCache.isBranch node = true
          · simp [branch, sound, Served]
          · simp [branch, sound, Served, LookupCache.codec]
  | none =>
      simp only [Action.bind_run]
      cases decoded : decode record.encoded requireBranch with
      | illegal => rfl
      | fail error => exact ⟨sound, .inr rfl⟩
      | ok node =>
          simp only [LookupCache.codec, Action.attempt_ok, LookupCache.allocate]
          cases granted : grants ready.requested with
          | false => exact ⟨sound.asked _, .inl ⟨rfl, _, granted⟩⟩
          | true =>
              refine ⟨⟨?_, ?_⟩, rfl⟩
              · intro other isOther
                simpa using sound.size other isOther
              · intro other place entry isOther placed
                have same : other = address := by
                  rw [show ready.index = some other from isOther] at current
                  simpa using current
                subst same
                rcases eq_or_ne position place with rfl | differ
                · simp only [List.getElem?_set_self inside, Option.some.injEq] at placed
                  subst placed
                  exact ⟨record, node, recordOf, by simp, decode_of decoded⟩
                · simp only [List.getElem?_set_ne differ] at placed
                  obtain ⟨kept, keptNode, keptOf, entryOf, keptDecoded⟩ :=
                    sound.kept other place entry current placed
                  refine ⟨kept, keptNode, keptOf, ?_, keptDecoded⟩
                  have entryLt := (List.getElem?_eq_some_iff.mp entryOf).1
                  simp only [List.getElem?_append_left entryLt, entryOf]

theorem decodeAt_served (faithful : Faithful witness cache) {position : Nat} {record : NodeRecord}
    (recordOf : (witness address).records[position]? = some record) (requireBranch : Bool) :
    Served witness grants (decode record.encoded requireBranch)
      (LookupCache.decodeAt grants address (witness address) position record.encoded requireBranch
        cache) := by
  rw [LookupCache.decodeAt, Action.bind_run]
  rcases prepareIndex_run faithful with
    ⟨ready, prepared, sound, current⟩ | ⟨error, after, failed, sound, refused⟩
  · rw [prepared]
    exact fetch_served sound current recordOf requireBranch
  · rw [failed]
    exact ⟨sound, .inl refused⟩

/-! ## Walks -/

theorem selectedChild_ok (key : Slice) (depth : Nat) :
    ∃ selected, selectedChild key depth = .ok selected := by
  rw [selectedChild]
  by_cases inside : depth < keyNibbleLen key
  · have byteLt : depth / 2 < key.len := by
      rw [keyNibbleLen] at inside
      omega
    simp [inside, keyNibbleAt, key.byteAt_eq byteLt]
  · exact ⟨none, if_neg inside⟩

/-- A key reads of a branch the child it selects and no other. -/
theorem advance_keep (index : IndexData) {key : Slice} {depth : Nat} {selected : Option Nat}
    (chosen : selectedChild key depth = .ok selected) (node : Node) :
    advance index key depth (node.keep (.ofSelected selected)) = advance index key depth node := by
  cases node with
  | leaf decoded => rfl
  | extension decoded => rfl
  | branch decoded =>
      simp only [Node.keep, advance]
      by_cases atEnd : depth = keyNibbleLen key
      · simp [atEnd]
      · by_cases past : keyNibbleLen key < depth
        · simp [atEnd, past]
        · have inside : depth < keyNibbleLen key := by omega
          simp only [atEnd, past, if_false]
          rw [selectedChild, if_pos inside] at chosen
          cases nibbleOf : keyNibbleAt key depth with
          | none => rfl
          | some nibble =>
              rw [nibbleOf] at chosen
              cases chosen
              have made : (BranchMode.selected nibble.toNat).materializes (0 + nibble.toNat) = true := by
                simp [BranchMode.materializes]
              simp only [BranchMode.ofSelected, Checked.liftM_some, Checked.ok_bind,
                BranchMode.getElem?_keep _ decoded.children 0 nibble.toNat made]

/-- The place a reference gives is that of its node. -/
def Located (index : IndexData) (resolved : ResolvedReference) : Prop :=
  ∀ position, resolved.position = some position →
    ∃ record, index.records[position]? = some record ∧ record.encoded = resolved.encoded

theorem IndexData.probe_located {digest : Hash} {indexed : IndexedNode} :
    ∀ {fuel slot : Nat}, index.probe digest fuel slot = some (some indexed) →
      ∃ record, index.records[indexed.position]? = some record ∧ record.encoded = indexed.encoded := by
  intro fuel
  induction fuel with
  | zero =>
      intro slot found
      cases found
  | succ fuel inductionHypothesis =>
      intro slot found
      rw [IndexData.probe] at found
      obtain ⟨entry, entryOf, found⟩ := Option.bind_eq_some_iff.mp found
      cases entry with
      | zero => cases found
      | succ position =>
          obtain ⟨record, recordOf, found⟩ := Option.bind_eq_some_iff.mp found
          split at found
          · cases found
            exact ⟨record, recordOf, rfl⟩
          · exact inductionHypothesis found

theorem IndexData.find_located {digest : Hash} {indexed : IndexedNode}
    (found : index.find digest = some (some indexed)) :
    ∃ record, index.records[indexed.position]? = some record ∧ record.encoded = indexed.encoded := by
  rw [IndexData.find] at found
  split at found
  · cases found
  · exact probe_located found

theorem resolveReference_located {reference : Reference} {resolved : ResolvedReference}
    (ran : resolveReference index reference = .ok (some resolved)) : Located index resolved := by
  cases reference with
  | empty => cases ran
  | embedded child =>
      cases ran
      rintro position ⟨⟩
  | hashed digest =>
      rw [resolveReference] at ran
      split at ran
      · cases ran
      · cases ran
      · rename_i indexed found
        split at ran
        · cases ran
        · cases ran
          rintro position ⟨⟩
          exact IndexData.find_located found

theorem advance_located {key : Slice} {depth depth' : Nat} {node : Node}
    {resolved : ResolvedReference} {extensionParent : Bool}
    (ran : advance index key depth node = .ok (.next resolved depth' extensionParent)) :
    Located index resolved := by
  cases node with
  | leaf decoded =>
      obtain ⟨matched, _, ran⟩ := Checked.bind_eq_ok.mp ran
      split at ran
      · split at ran <;> cases ran
      · cases ran
  | extension decoded =>
      obtain ⟨matched, _, ran⟩ := Checked.bind_eq_ok.mp ran
      split at ran
      · obtain ⟨child, required, ran⟩ := Checked.bind_eq_ok.mp ran
        cases ran
        obtain ⟨found, resolvedFound, required⟩ := Checked.bind_eq_ok.mp required
        cases found with
        | none => cases required
        | some found =>
            cases required
            exact resolveReference_located resolvedFound
      · cases ran
  | branch decoded =>
      rw [advance] at ran
      split at ran
      · split at ran <;> cases ran
      · split at ran
        · cases ran
        · obtain ⟨nibble, _, ran⟩ := Checked.bind_eq_ok.mp ran
          obtain ⟨child, _, ran⟩ := Checked.bind_eq_ok.mp ran
          obtain ⟨found, resolvedFound, ran⟩ := Checked.bind_eq_ok.mp ran
          cases found with
          | none => cases ran
          | some found =>
              cases ran
              exact resolveReference_located resolvedFound

/-- A run with a cache against the run without one. -/
def Agrees (witness : Nat → IndexData) (grants : Nat → Bool) {α : Type}
    (cached : Outcome (Option LookupCache) LookupError α)
    (plain : Outcome (Option LookupCache) LookupError α) : Prop :=
  match cached with
  | .ok result (some after) => Faithful witness after ∧ plain = .ok result none
  | .fail error (some after) =>
      Faithful witness after ∧ (Refused grants error ∨ plain = .fail error none)
  | .illegal => plain = .illegal
  | _ => False

/-- Two runs that decode alike, and go on alike from what was decoded. -/
theorem attempt_agrees {α β : Type} {value value' : Checked LookupError α}
    {rest rest' : α → Action (Option LookupCache) LookupError β} {after : LookupCache}
    (sound : Faithful witness after) (same : value' = value)
    (goes : ∀ result, value = .ok result →
      Agrees witness grants (rest result (some after)) (rest' result none)) :
    Agrees witness grants ((Action.attempt id value >>= rest) (some after))
      ((Action.attempt id value' >>= rest') none) := by
  rw [same, Action.bind_run, Action.bind_run]
  cases outcome : value with
  | illegal => rfl
  | fail error => exact ⟨sound, .inr rfl⟩
  | ok result => exact goes result outcome

theorem walk_agrees (key : Slice) : ∀ (left : Nat) (resolved : ResolvedReference) (depth : Nat)
    (extensionParent : Bool) (cache : LookupCache), Faithful witness cache →
      Located (witness address) resolved →
      Agrees witness grants
        (walk grants address (witness address) key left resolved depth extensionParent (some cache))
        (walk (fun _ => true) 0 (witness address) key left resolved depth extensionParent none) := by
  intro left
  induction left with
  | zero =>
      intro resolved depth extensionParent cache faithful located
      exact ⟨faithful, .inr rfl⟩
  | succ left inductionHypothesis =>
      intro resolved depth extensionParent cache faithful located
      obtain ⟨selected, chosen⟩ := selectedChild_ok key depth
      rw [walk, walk, Action.bind_run, Action.bind_run]
      cases position : resolved.position with
      | none =>
          simp only [decodeResolved, position]
          cases decodeForPath resolved.encoded extensionParent key depth with
          | illegal => rfl
          | fail error => exact ⟨faithful, .inr rfl⟩
          | ok node =>
              apply attempt_agrees faithful rfl
              intro onward advanced
              cases onward with
              | done result => exact ⟨faithful, rfl⟩
              | next resolved' depth' extensionParent' =>
                  exact inductionHypothesis resolved' depth' extensionParent' cache faithful
                    (advance_located advanced)
      | some place =>
          obtain ⟨record, recordOf, encodedEq⟩ := located place position
          have ran : Served witness grants _ _ := decodeAt_served faithful recordOf extensionParent
          simp only [decodeResolved, position, ← encodedEq]
          have plain : decodeForPath record.encoded extensionParent key depth =
              LookupCache.codec (decode record.encoded extensionParent >>= fun node =>
                pure (node.keep (.ofSelected selected))) := by
            rw [decodeForPath, chosen, Checked.ok_bind, decodeForLookup, decodeWithBranchMode_eq]
          rw [plain]
          cases outcome : LookupCache.decodeAt grants address (witness address) place record.encoded
            extensionParent cache with
          | ok node after =>
            rw [outcome] at ran
            rw [ran.2]
            apply attempt_agrees ran.1 (advance_keep _ chosen node)
            intro onward advanced
            cases onward with
            | done result => exact ⟨ran.1, rfl⟩
            | next resolved' depth' extensionParent' =>
                exact inductionHypothesis resolved' depth' extensionParent' after ran.1
                  (advance_located advanced)
          | fail error after =>
            rw [outcome] at ran
            refine ⟨ran.1, ran.2.imp id ?_⟩
            intro failed
            cases decoded : decode record.encoded extensionParent with
            | ok node => simp [decoded, LookupCache.codec] at failed
            | fail codecError =>
                rw [decoded] at failed
                cases failed
                rfl
            | illegal => simp [decoded, LookupCache.codec] at failed
          | illegal =>
            rw [outcome] at ran
            rw [show decode record.encoded extensionParent = .illegal from ran]
            rfl

/-! ## Sequences of lookups -/

/-- What a call returns, without the receiver. -/
def answer {σ ε α : Type} : Outcome σ ε α → Checked ε α
  | .ok value _ => .ok value
  | .fail error _ => .fail error
  | .illegal => .illegal

/-- The caches that lookups in live indexes leave behind, whatever they answer. -/
inductive Reached (witness : Nat → IndexData) : LookupCache → Prop
  | init : Reached witness {}
  | found {cache after : LookupCache} {grants : Nat → Bool} {address : Nat} {root : Hash} {key : Slice}
      {result : Lookup} (reached : Reached witness cache)
      (ran : lookupCached grants address (witness address) root key cache = .ok result after) :
      Reached witness after
  | failed {cache after : LookupCache} {grants : Nat → Bool} {address : Nat} {root : Hash}
      {key : Slice} {error : LookupError} (reached : Reached witness cache)
      (ran : lookupCached grants address (witness address) root key cache = .fail error after) :
      Reached witness after

theorem lookupWithCache_agrees (faithful : Faithful witness cache) (root : Hash) (key : Slice) :
    Agrees witness grants
      (lookupWithCache grants address (witness address) root key (some cache))
      (lookupWithCache (fun _ => true) 0 (witness address) root key none) := by
  unfold lookupWithCache
  split
  · exact ⟨faithful, rfl⟩
  · cases mulChecked 64 key.len 2 with
    | none => exact ⟨faithful, .inr rfl⟩
    | some keyNibbles =>
        simp only
        cases addChecked 64 keyNibbles 1 with
        | none => exact ⟨faithful, .inr rfl⟩
        | some stepCapacity =>
            simp only
            cases found : (witness address).find root with
            | none => rfl
            | some place =>
                cases place with
                | none => exact ⟨faithful, .inr rfl⟩
                | some rootNode =>
                    apply walk_agrees key _ _ _ _ cache faithful
                    rintro position ⟨⟩
                    exact IndexData.find_located found

/-! ### Without a cache nothing is allocated -/

theorem codec_ne_outOfMemory {α : Type} (result : Checked CodecError α) :
    LookupCache.codec result ≠ .fail .outOfMemory := by
  cases result <;> simp [LookupCache.codec]

theorem decodeForPath_ne_outOfMemory (encoded : Slice) (requireBranch : Bool) (key : Slice)
    (depth : Nat) : decodeForPath encoded requireBranch key depth ≠ .fail .outOfMemory := by
  obtain ⟨selected, chosen⟩ := selectedChild_ok key depth
  rw [decodeForPath, chosen, Checked.ok_bind]
  exact codec_ne_outOfMemory _

theorem resolveReference_ne_outOfMemory (index : IndexData) (reference : Reference) :
    resolveReference index reference ≠ .fail .outOfMemory := by
  cases reference with
  | empty => simp [resolveReference]
  | embedded child => simp [resolveReference]
  | hashed digest =>
      rw [resolveReference]
      split
      · simp
      · simp
      · split <;> simp

theorem advance_ne_outOfMemory (index : IndexData) (key : Slice) (depth : Nat) (node : Node) :
    advance index key depth node ≠ .fail .outOfMemory := by
  cases node with
  | leaf decoded =>
      rw [advance]
      cases decoded.path.matchesKey key depth with
      | none => simp
      | some matched =>
          simp only [Checked.liftM_some, Checked.ok_bind]
          split
          · split <;> simp
          · simp
  | extension decoded =>
      rw [advance, resolveRequiredReference]
      have kept := resolveReference_ne_outOfMemory index decoded.child
      cases decoded.path.matchesKey key depth with
      | none => simp
      | some matched =>
          simp only [Checked.liftM_some, Checked.ok_bind]
          split
          · cases resolved : resolveReference index decoded.child with
            | ok found => cases found <;> simp
            | fail error =>
                rw [resolved] at kept
                simpa using kept
            | illegal => simp
          · simp
  | branch decoded =>
      rw [advance]
      split
      · cases decoded.value <;> simp
      · split
        · simp
        · cases keyNibbleAt key depth with
          | none => simp
          | some nibble =>
              simp only [Checked.liftM_some, Checked.ok_bind]
              cases decoded.children[nibble.toNat]? with
              | none => simp
              | some child =>
                  have kept := resolveReference_ne_outOfMemory index child
                  simp only [Checked.liftM_some, Checked.ok_bind]
                  cases resolved : resolveReference index child with
                  | ok found => cases found <;> simp
                  | fail error =>
                      rw [resolved] at kept
                      simpa using kept
                  | illegal => simp

theorem decodeResolved_none (index : IndexData) (key : Slice) (resolved : ResolvedReference)
    (depth : Nat) (extensionParent : Bool) :
    decodeResolved (fun _ => true) 0 index key resolved depth extensionParent none =
      match decodeForPath resolved.encoded extensionParent key depth with
      | .ok decoded => .ok decoded none
      | .fail error => .fail error none
      | .illegal => .illegal := by
  unfold decodeResolved
  cases resolved.position <;> rfl

theorem walk_ne_outOfMemory (index : IndexData) (key : Slice) : ∀ (left : Nat)
    (resolved : ResolvedReference) (depth : Nat) (extensionParent : Bool)
    (after : Option LookupCache),
    walk (fun _ => true) 0 index key left resolved depth extensionParent none ≠
      .fail .outOfMemory after := by
  intro left
  induction left with
  | zero =>
      intro resolved depth extensionParent after
      simp [walk]
  | succ left inductionHypothesis =>
      intro resolved depth extensionParent after
      have kept := decodeForPath_ne_outOfMemory resolved.encoded extensionParent key depth
      rw [walk, Action.bind_run, decodeResolved_none]
      cases decoded : decodeForPath resolved.encoded extensionParent key depth with
      | illegal => simp
      | fail error =>
          rw [decoded] at kept
          simp only [ne_eq, Checked.fail.injEq] at kept
          simp [kept]
      | ok node =>
          have advances := advance_ne_outOfMemory index key depth node
          simp only [Action.bind_run]
          cases advanced : advance index key depth node with
          | illegal => simp [Action.attempt]
          | fail error =>
              rw [advanced] at advances
              simp only [ne_eq, Checked.fail.injEq] at advances
              simp [advances]
          | ok onward =>
              cases onward with
              | done result => simp
              | next resolved' depth' extensionParent' =>
                  exact inductionHypothesis resolved' depth' extensionParent' after

theorem lookupWithCache_ne_outOfMemory (index : IndexData) (root : Hash) (key : Slice)
    (after : Option LookupCache) :
    lookupWithCache (fun _ => true) 0 index root key none ≠ .fail .outOfMemory after := by
  unfold lookupWithCache
  split
  · simp
  · cases mulChecked 64 key.len 2 with
    | none => simp
    | some keyNibbles =>
        simp only
        cases addChecked 64 keyNibbles 1 with
        | none => simp
        | some stepCapacity =>
            simp only
            cases index.find root with
            | none => simp [Action.illegal]
            | some place =>
                cases place with
                | none => simp
                | some rootNode => exact walk_ne_outOfMemory index key _ _ _ _ after

/-! ### Any sequence of lookups -/

theorem lookupCached_run (faithful : Faithful witness cache) (grants : Nat → Bool) (address : Nat)
    (root : Hash) (key : Slice) :
    match lookupCached grants address (witness address) root key cache with
    | .ok result after =>
        Faithful witness after ∧ lookup (witness address) root key = .ok result
    | .fail error after => Faithful witness after ∧ (Refused grants error ∨
        lookup (witness address) root key = .fail error)
    | .illegal => lookup (witness address) root key = .illegal := by
  have agrees : Agrees witness grants
      (lookupWithCache grants address (witness address) root key (some cache)) _ :=
    lookupWithCache_agrees faithful root key
  have plain := lookupWithCache_ne_outOfMemory (witness address) root key none
  rw [lookupCached, lookup]
  cases ran : lookupWithCache grants address (witness address) root key (some cache) with
  | ok result after =>
      rw [ran] at agrees
      cases after with
      | none => exact agrees.elim
      | some after =>
          obtain ⟨sound, same⟩ := agrees
          exact ⟨sound, by rw [same]⟩
  | fail error after =>
      rw [ran] at agrees
      cases after with
      | none => exact agrees.elim
      | some after =>
          obtain ⟨sound, refused | same⟩ := agrees
          · exact ⟨sound, .inl refused⟩
          · refine ⟨sound, .inr ?_⟩
            rw [same] at plain ⊢
            cases error with
            | outOfMemory => exact absurd rfl plain
            | codec error => rfl
            | missingNode => rfl
            | resourceLimitExceeded => rfl
  | illegal =>
      rw [ran] at agrees
      rw [show lookupWithCache (fun _ => true) 0 (witness address) root key none = .illegal from agrees]

theorem Reached.faithful (reached : Reached witness cache) : Faithful witness cache := by
  induction reached with
  | init => exact ⟨by rintro address ⟨⟩, by rintro address position entry ⟨⟩⟩
  | @found cache after grants address root key result reached ran inductionHypothesis =>
      have outcome := lookupCached_run inductionHypothesis grants address root key
      rw [ran] at outcome
      exact outcome.1
  | @failed cache after grants address root key error reached ran inductionHypothesis =>
      have outcome := lookupCached_run inductionHypothesis grants address root key
      rw [ran] at outcome
      exact outcome.1

/--
However a cache came about, a lookup through it answers what a lookup without
one answers, unless an allocation for the cache fails and the lookup says so.
-/
theorem lookupCached_answers {cache : LookupCache} (reached : Reached witness cache)
    (grants : Nat → Bool) (address : Nat) (root : Hash) (key : Slice) :
    answer (lookupCached grants address (witness address) root key cache) =
        lookup (witness address) root key ∨
      answer (lookupCached grants address (witness address) root key cache) = .fail .outOfMemory ∧
        ∃ request, grants request = false := by
  have outcome := lookupCached_run reached.faithful grants address root key
  cases ran : lookupCached grants address (witness address) root key cache with
  | ok result after =>
      rw [ran] at outcome
      exact .inl outcome.2.symm
  | fail error after =>
      rw [ran] at outcome
      obtain ⟨_, ⟨rfl, refused⟩ | same⟩ := outcome
      · exact .inr ⟨rfl, refused⟩
      · exact .inl same.symm
  | illegal =>
      rw [ran] at outcome
      exact .inl outcome.symm

/-- A witness of one leaf, which holds a value for the empty key. -/
def leafWitness : IndexData where
  records := [{ key := ⟨List.replicate 32 0, rfl⟩, encoded := ⟨[0xc2, 0x20, 0x01], by decide⟩ }]
  table := [1, 0]

def leafPath : CompactPath where
  encoded := ⟨[0x20], by decide⟩
  nibbleOffset := 2
  len := 0
  terminal := true

/-- The cache after a lookup of the leaf. -/
def leafCache : LookupCache where
  index := some 0
  slots := [some 0]
  entries := [.leaf { path := leafPath, value := ⟨[0x01], by decide⟩ }]
  requested := 2

theorem lookupCached_answers_again :
    answer (lookupCached (fun _ => true) 0 leafWitness ⟨List.replicate 32 0, rfl⟩ Slice.empty
      leafCache) = lookup leafWitness ⟨List.replicate 32 0, rfl⟩ Slice.empty := by
  have first : lookupCached (fun _ => true) 0 leafWitness ⟨List.replicate 32 0, rfl⟩ Slice.empty {} =
      .ok (.present ⟨[0x01], by decide⟩) leafCache := by
    decide +kernel
  have reached : Reached (fun _ => leafWitness) leafCache := .found .init first
  rcases lookupCached_answers reached (fun _ => true) 0 ⟨List.replicate 32 0, rfl⟩ Slice.empty with
    same | ⟨_, _, refused⟩
  · exact same
  · cases refused

/-- A lookup whose cache gets no memory. -/
theorem lookupCached_without_memory :
    answer (lookupCached (fun _ => false) 0 leafWitness ⟨List.replicate 32 0, rfl⟩ Slice.empty {}) ≠
      lookup leafWitness ⟨List.replicate 32 0, rfl⟩ Slice.empty := by
  decide +kernel

end EvmZig.Mpt
