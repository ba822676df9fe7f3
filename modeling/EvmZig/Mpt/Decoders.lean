import EvmZig.Mpt.Node
import EvmZig.Rlp.Canonical

/-!
# The node decoders agree

The lookup decoder gives what the full one gives, errors included, with the
children it does not need left empty.  The catalog decoder accepts what the
full one accepts, and its spans name the same children in the encoded node.
-/

set_option autoImplicit false

namespace EvmZig.Mpt

open Zig Rlp

variable {fields after : Cursor} {item : Item} {items : List Item} {encoded : Slice} {base : Nat}

/-! ## The lookup decoder -/

theorem hasReference_eq (item : Item) :
    hasReference item = (decodeReference item >>= fun child => pure (decide (child ≠ .empty))) := by
  cases item with
  | list span =>
      simp only [hasReference, decodeReference]
      split <;> rfl
  | bytes span =>
      simp only [hasReference, decodeReference]
      split
      · rfl
      · split <;> rfl

/-- The children of a branch that a mode makes, from an index on. -/
def BranchMode.keep (mode : BranchMode) : Nat → List Reference → List Reference
  | _, [] => []
  | index, child :: rest =>
      (if mode.materializes index then child else .empty) :: mode.keep (index + 1) rest

def Node.keep (mode : BranchMode) : Node → Node
  | .leaf decoded => .leaf decoded
  | .extension decoded => .extension decoded
  | .branch decoded => .branch { decoded with children := mode.keep 0 decoded.children }

theorem BranchMode.getElem?_keep (mode : BranchMode) (children : List Reference) :
    ∀ index place : Nat, mode.materializes (index + place) = true →
      (mode.keep index children)[place]? = children[place]? := by
  induction children with
  | nil => intro index place _; rfl
  | cons child rest inductionHypothesis =>
      intro index place made
      cases place with
      | zero =>
          rw [Nat.add_zero] at made
          simp [BranchMode.keep, made]
      | succ place =>
          rw [BranchMode.keep, List.getElem?_cons_succ, List.getElem?_cons_succ]
          exact inductionHypothesis (index + 1) place (by rwa [Nat.add_right_comm])

theorem decodeChildren_eq (mode : BranchMode) (items : List Item) : ∀ index,
    decodeChildren mode index items =
      (decodeChildren .full index items >>= fun (children, occupied) =>
        pure (mode.keep index children, occupied)) := by
  induction items with
  | nil => intro index; rfl
  | cons item rest inductionHypothesis =>
      intro index
      have full : BranchMode.full.materializes index = true := rfl
      rw [decodeChildren, decodeChildren, inductionHypothesis, hasReference_eq]
      simp only [full, if_true]
      cases decodeReference item with
      | illegal => split <;> rfl
      | fail error => split <;> rfl
      | ok child =>
          cases decodeChildren .full (index + 1) rest with
          | illegal => split <;> rfl
          | fail error => split <;> rfl
          | ok result =>
              split
              · simp [BranchMode.keep, *]
              · by_cases absent : child = .empty
                · simp [BranchMode.keep, *]
                · simp [BranchMode.keep, *]

theorem decodeBranch_eq (mode : BranchMode) (items : List Item) :
    decodeBranch mode items =
      (decodeBranch .full items >>= fun node => pure (node.keep mode)) := by
  rw [decodeBranch, decodeBranch, decodeChildren_eq mode]
  cases decodeChildren .full 0 (items.take 16) with
  | illegal => rfl
  | fail error => rfl
  | ok result =>
      simp only [Checked.ok_bind, Checked.pure_eq]
      cases items[16]? with
      | none => rfl
      | some last =>
          simp only [Checked.liftM_some, Checked.ok_bind]
          cases orInvalidNode last.asBytes with
          | illegal => rfl
          | fail error => rfl
          | ok value =>
              simp only [Checked.ok_bind]
              cases branchValue value result.2 <;> rfl

theorem decodeFields_eq (requireBranch : Bool) (mode : BranchMode) (items : List Item) :
    decodeFields requireBranch mode items =
      (decodeFields requireBranch .full items >>= fun node => pure (node.keep mode)) := by
  unfold decodeFields
  split
  · rfl
  · split
    · rename_i first second _
      cases decodeShort first second with
      | illegal => rfl
      | fail error => rfl
      | ok short => cases short <;> rfl
    · split
      · exact decodeBranch_eq mode _
      · rfl

/-- A mode only decides which children a branch shows. -/
theorem decodeWithBranchMode_eq (encoded : Slice) (requireBranch : Bool) (mode : BranchMode) :
    decodeWithBranchMode encoded requireBranch mode =
      (decode encoded requireBranch >>= fun node => pure (node.keep mode)) := by
  rw [decode, decodeWithBranchMode, decodeWithBranchMode]
  cases parse (parseExact encoded) with
  | illegal => rfl
  | fail error => rfl
  | ok item =>
      simp only [Checked.ok_bind]
      cases orInvalidNode item.listCursor with
      | illegal => rfl
      | fail error => rfl
      | ok fields =>
          simp only [Checked.ok_bind]
          cases collectFields 17 fields with
          | illegal => rfl
          | fail error => rfl
          | ok items => exact decodeFields_eq requireBranch mode items

/-! ## Fields read one after another -/

/-- `items` are read from `fields` on, up to `after`. -/
inductive Reads : Cursor → List Item → Cursor → Prop
  | none (fields : Cursor) : Reads fields [] fields
  | next {fields middle after : Cursor} {item : Item} {items : List Item}
      (more : fields.isDone = false) (run : nextField fields = .ok (item, middle))
      (rest : Reads middle items after) : Reads fields (item :: items) after

theorem nextField_eq_ok :
    nextField fields = .ok (item, after) ↔ Cursor.next fields = .ok item after := by
  unfold nextField
  cases Cursor.next fields <;> simp

theorem collectFields_eq_ok {room : Nat} : ∀ {fields : Cursor},
    collectFields room fields = .ok items ↔
      items.length ≤ room ∧ ∃ after, Reads fields items after ∧ after.isDone = true := by
  induction room generalizing items with
  | zero =>
      intro fields
      rw [collectFields]
      cases done : fields.isDone with
      | true =>
          constructor
          · intro eq
            cases eq
            exact ⟨Nat.le_refl _, fields, .none fields, done⟩
          · rintro ⟨short, after, reads, _⟩
            cases reads with
            | none => rfl
            | next more run rest => simp at short
      | false =>
          constructor
          · intro eq
            cases eq
          · rintro ⟨short, after, reads, ends⟩
            cases reads with
            | none => simp [ends] at done
            | next more run rest => simp at short
  | succ room inductionHypothesis =>
      intro fields
      rw [collectFields]
      cases done : fields.isDone with
      | true =>
          constructor
          · intro eq
            cases eq
            exact ⟨Nat.zero_le _, fields, .none fields, done⟩
          · rintro ⟨short, after, reads, _⟩
            cases reads with
            | none => rfl
            | next more run rest => simp [more] at done
      | false =>
          simp only [Bool.false_eq_true, if_false]
          constructor
          · intro eq
            obtain ⟨⟨item, middle⟩, run, eq⟩ := Checked.bind_eq_ok.mp eq
            obtain ⟨rest, collected, eq⟩ := Checked.bind_eq_ok.mp eq
            cases eq
            obtain ⟨short, after, reads, ends⟩ := inductionHypothesis.mp collected
            exact ⟨Nat.succ_le_succ short, after, .next done run reads, ends⟩
          · rintro ⟨short, after, reads, ends⟩
            cases reads with
            | none => simp [ends] at done
            | @next fields middle after item items more run rest =>
                have collected := inductionHypothesis.mpr
                  ⟨Nat.le_of_succ_le_succ short, after, rest, ends⟩
                simp [run, collected]

/-! ## The catalog decoder -/

/-- The reference a span stands for in the encoded node. -/
def CatalogReference.reference (encoded : Slice) (self : CatalogReference) : Option Reference :=
  match self.kind with
  | .empty => some .empty
  | .embedded => (encoded.sub self.offset (self.offset + self.len)).map .embedded
  | .hashed => do
      let digest ← encoded.sub self.offset (self.offset + self.len)
      if exact : digest.len = 32 then return .hashed ⟨digest.bytes, exact⟩ else none

def CatalogNode.node (encoded : Slice) : CatalogNode → Option Node
  | .leaf decoded => some (.leaf decoded)
  | .extension decoded => some (.extension decoded)
  | .branch decoded => do
      let children ← decoded.children.mapM (CatalogReference.reference encoded)
      return .branch { children, value := decoded.value }

/-- The fields of an encoded node, the first of them `base` bytes into it. -/
structure Within (encoded : Slice) (base : Nat) (fields : Cursor) : Prop where
  suffix : fields.input.bytes = encoded.bytes.drop base
  total : base + fields.input.len = encoded.len
  inside : fields.offset ≤ fields.input.len

namespace Within

variable {encoded : Slice} {base : Nat} {fields after : Cursor} {item : Item}

theorem step (within : Within encoded base fields) (accepts : Accepts fields item after) :
    Within encoded base after :=
  ⟨by rw [accepts.sameInput, within.suffix], by rw [accepts.sameInput, within.total],
    by rw [accepts.sameInput]; exact accepts.inside⟩

/-- A window of the fields is a window of the node. -/
theorem window (within : Within encoded base fields) (start stop : Nat) :
    fields.input.window start stop = encoded.window (base + start) (base + stop) := by
  apply Slice.ext
  simp only [Slice.window, within.suffix, List.take_drop, List.drop_drop]

end Within

theorem bytesItem_of_length {payload : List UInt8} (exact : payload.length = 32) :
    itemBytes .bytes payload = 0xa0 :: payload := by
  rw [itemBytes, bytesItem_eq]
  · simp [lengthPrefix, exact]
  · rintro byte rfl
    simp at exact

theorem catalogOffset_eq {span : Slice} {offset : Nat} (inside : offset + span.len ≤ encoded.len)
    (small : offset < 2 ^ 32) : catalogOffset encoded offset span = .ok offset := by
  rw [catalogOffset, if_neg (by omega), castChecked_eq small]

/-- A child the full decoder makes is the child the catalog span names. -/
theorem decodeCatalogReference_of {child : Reference} (within : Within encoded base fields)
    (accepts : Accepts fields item after) (made : decodeReference item = .ok child)
    (small : base + fields.offset + 1 < 2 ^ 32) : after.offset ≤ fields.offset + 33 ∧
      ∃ reference, decodeCatalogReference encoded (base + after.offset) item = .ok reference ∧
        reference.reference encoded = some child ∧ (reference.kind = .empty ↔ child = .empty) := by
  have advances := accepts.advances
  have inside := accepts.inside
  have total := within.total
  have length : item.encoded.len = after.offset - fields.offset := by
    rw [accepts.encoded, fields.input.window_len _ inside]
  cases item with
  | list span =>
      simp only [decodeReference] at made
      split at made
      · cases made
      · rename_i short
        cases made
        have spanLen : span.encoded.len = after.offset - fields.offset := length
        have start : base + after.offset - span.encoded.len = base + fields.offset := by omega
        have offset : catalogOffset encoded (base + fields.offset) span.encoded =
            .ok (base + fields.offset) := catalogOffset_eq (by omega) (by omega)
        refine ⟨by omega, ⟨base + fields.offset, span.encoded.len, .embedded⟩, ?_, ?_, by simp⟩
        · rw [decodeCatalogReference]
          simp [decodeReference, short, start, offset]
        · have stop : base + fields.offset + span.encoded.len = base + after.offset := by omega
          have spanIs : span.encoded = fields.input.window fields.offset after.offset :=
            accepts.encoded
          simp only [CatalogReference.reference]
          rw [stop, encoded.sub_eq (by omega) (by omega), ← within.window, ← spanIs]
          rfl
  | bytes span =>
      have canonical : span.encoded.bytes = itemBytes .bytes span.payload.bytes := accepts.canonical
      have spanLen : span.encoded.len = after.offset - fields.offset := length
      simp only [decodeReference] at made
      split at made
      · rename_i empty
        cases made
        have none : span.payload.bytes = [] := List.eq_nil_of_length_eq_zero empty
        have one : span.encoded.len = 1 := by
          rw [Slice.len, canonical, none]
          rfl
        refine ⟨by omega, ⟨0, 0, .empty⟩, ?_, rfl, by simp⟩
        rw [decodeCatalogReference]
        simp [decodeReference, empty]
      · rename_i full
        split at made
        · rename_i exact
          cases made
          have shape : span.encoded.bytes = 0xa0 :: span.payload.bytes := by
            rw [canonical, bytesItem_of_length exact]
          have whole : span.encoded.len = 33 := by
            rw [Slice.len, shape, List.length_cons, ← Slice.len, exact]
          have start : base + after.offset - 32 = base + fields.offset + 1 := by omega
          have offset : catalogOffset encoded (base + fields.offset + 1) span.payload =
              .ok (base + fields.offset + 1) := catalogOffset_eq (by omega) (by omega)
          refine ⟨by omega, ⟨base + fields.offset + 1, 32, .hashed⟩, ?_, ?_, by simp⟩
          · rw [decodeCatalogReference]
            simp [decodeReference, exact, start, Item.payload, offset]
          · have bytes : (encoded.window (base + (fields.offset + 1)) (base + after.offset)).bytes =
                span.payload.bytes := by
              have spanIs : span.encoded = fields.input.window fields.offset after.offset :=
                accepts.encoded
              have split := fields.input.window_append (show fields.offset ≤ fields.offset + 1 by omega)
                (show fields.offset + 1 ≤ after.offset by omega)
              rw [← spanIs, shape, fields.input.window_singleton (by omega)] at split
              rw [← within.window]
              simpa using (List.cons.inj split).2
            have stop : base + fields.offset + 1 + 32 = base + after.offset := by omega
            have sub := encoded.sub_eq (show base + fields.offset + 1 ≤ base + after.offset by omega)
              (by omega)
            have windowLen := encoded.window_len (base + fields.offset + 1)
              (show base + after.offset ≤ encoded.len by omega)
            simp only [CatalogReference.reference, stop, sub]
            rw [← Nat.add_assoc] at bytes
            simp [windowLen, bytes, show base + after.offset - (base + fields.offset + 1) = 32 by omega]
        · cases made

/-- The first byte of an item tells an empty string and a digest from all else. -/
theorem itemBytes_first {kind : Rlp.Kind} {payload rest : List UInt8} {first : UInt8}
    (short : payload.length < 2 ^ 64) (eq : itemBytes kind payload = first :: rest) :
    (first = 0x80 → kind = .bytes ∧ payload = []) ∧
      (first = 0xa0 → kind = .bytes ∧ payload.length = 32) := by
  rcases itemBytes_shape kind payload with ⟨byte, rfl, rfl, small⟩ | ⟨brief, notSingle⟩ | long
  · have shape : itemBytes .bytes [byte] = [byte] := bytesItem_single small
    rw [shape] at eq
    cases eq
    constructor
    · rintro rfl
      exact absurd small (by decide)
    · rintro rfl
      exact absurd small (by decide)
  · rw [itemBytes_shortFirst brief fun isBytes byte => notSingle byte isBytes] at eq
    have head := congrArg UInt8.toNat (List.cons.inj eq).1
    cases kind with
    | bytes =>
        have value : first.toNat = 0x80 + payload.length := by
          rw [← head]
          exact ofNat_toNat (by simp only [shortFirst]; omega)
        constructor
        · rintro rfl
          exact ⟨rfl, List.eq_nil_of_length_eq_zero (by simpa using value)⟩
        · rintro rfl
          have : (0xa0 : UInt8).toNat = 160 := rfl
          exact ⟨rfl, by omega⟩
    | list =>
        have value : first.toNat = 0xc0 + payload.length := by
          rw [← head]
          exact ofNat_toNat (by simp only [shortFirst]; omega)
        constructor
        · rintro rfl
          have : (0x80 : UInt8).toNat = 128 := rfl
          omega
        · rintro rfl
          have : (0xa0 : UInt8).toNat = 160 := rfl
          omega
  · rw [itemBytes_longFirst kind long] at eq
    have head := congrArg UInt8.toNat (List.cons.inj eq).1
    have width : byteWidth payload.length ≤ 8 := byteWidth_le_eight (by rw [usizeMax_eq]; omega)
    have value : first.toNat = longFirst kind (byteWidth payload.length) := by
      rw [← head]
      apply ofNat_toNat
      cases kind <;> simp only [longFirst] <;> omega
    constructor
    · rintro rfl
      have : (0x80 : UInt8).toNat = 128 := rfl
      cases kind <;> simp only [longFirst] at value <;> omega
    · rintro rfl
      have : (0xa0 : UInt8).toNat = 160 := rfl
      cases kind <;> simp only [longFirst] at value <;> omega

/-- The fast path reads what the cursor and the full reference decoder read. -/
theorem nextCatalogReference_of {child : Reference} (within : Within encoded base fields)
    (run : nextField fields = .ok (item, after)) (made : decodeReference item = .ok child)
    (small : base + fields.offset + 1 < 2 ^ 32) :
    after.offset ≤ fields.offset + 33 ∧ Within encoded base after ∧
      ∃ reference, nextCatalogReference encoded base fields = .ok (reference, after) ∧
        reference.reference encoded = some child ∧ (reference.kind = .empty ↔ child = .empty) := by
  have accepts := next_accepts (nextField_eq_ok.mp run)
  have advances := accepts.advances
  have inside := accepts.inside
  have total := within.total
  obtain ⟨step, reference, decoded, names, kinds⟩ :=
    decodeCatalogReference_of within accepts made small
  refine ⟨step, within.step accepts, ?_⟩
  have remaining := fields.input.sub_eq within.inside (Nat.le_refl _)
  have opened : (fields.input.window fields.offset fields.input.len).bytes =
      item.encoded.bytes ++ (fields.input.window after.offset fields.input.len).bytes := by
    rw [accepts.encoded, fields.input.window_append (by omega) inside]
  have afterIs : after = { fields with offset := after.offset } := by
    rw [← accepts.sameInput]
  have payloadFits : item.payload.bytes.length < 2 ^ 64 := by
    have := item.payload.fits
    rw [usizeMax_eq] at this
    omega
  have canonical := accepts.canonical
  have length : item.encoded.len = after.offset - fields.offset := by
    rw [accepts.encoded, fields.input.window_len _ inside]
  rw [nextCatalogReference, remaining]
  simp only [Checked.liftM_some, Checked.ok_bind, opened]
  cases bytes : item.encoded.bytes with
  | nil =>
      rw [Slice.len, bytes, List.length_nil] at length
      omega
  | cons first rest =>
      rw [bytes] at canonical
      obtain ⟨ifEmpty, ifHashed⟩ := itemBytes_first payloadFits canonical.symm
      simp only [List.cons_append]
      split
      · rename_i none
        cases none
      · rename_i empty
        obtain ⟨isBytes, none⟩ := ifEmpty (List.cons.inj empty).1
        cases item with
        | list span => cases isBytes
        | bytes span =>
            have payloadNone : span.payload.bytes = [] := none
            have emptyLen : span.payload.len = 0 := by rw [Slice.len, payloadNone]; rfl
            have one : (first :: rest).length = 1 := by
              rw [canonical, none, isBytes]
              rfl
            rw [decodeReference, if_pos emptyLen] at made
            cases made
            refine ⟨⟨0, 0, .empty⟩, ?_, rfl, by simp⟩
            rw [Slice.len, bytes, one] at length
            rw [afterIs, show after.offset = fields.offset + 1 by omega]
            rfl
      · rename_i digest
        obtain ⟨isBytes, exact⟩ := ifHashed (List.cons.inj digest).1
        cases item with
        | list span => cases isBytes
        | bytes span =>
            have exact' : span.payload.len = 32 := exact
            have whole : (first :: rest).length = 33 := by
              rw [canonical, isBytes, bytesItem_of_length exact, List.length_cons, exact]
            rw [Slice.len, bytes, whole] at length
            have enough := fields.input.window_len fields.offset (Nat.le_refl fields.input.len)
            have digestSub := (fields.input.window fields.offset fields.input.len).sub_eq
              (show 1 ≤ 33 by omega) (by omega)
            have digestLen := (fields.input.window fields.offset fields.input.len).window_len 1
              (show 33 ≤ _ by omega)
            have offset : catalogOffset encoded (base + fields.offset + 1)
                ((fields.input.window fields.offset fields.input.len).window 1 33) =
                  .ok (base + fields.offset + 1) := catalogOffset_eq (by omega) small
            have spanOffset : catalogOffset encoded (base + fields.offset + 1) span.payload =
                .ok (base + fields.offset + 1) := catalogOffset_eq (by omega) small
            have start : base + after.offset - 32 = base + fields.offset + 1 := by omega
            rw [decodeReference, if_neg (by omega), dif_pos exact'] at made
            cases made
            rw [decodeCatalogReference, decodeReference, if_neg (by omega), dif_pos exact'] at decoded
            simp only [Checked.ok_bind, Item.payload, start, spanOffset, Checked.pure_eq,
              Checked.ok.injEq] at decoded
            subst decoded
            refine ⟨_, ?_, names, kinds⟩
            rw [if_neg (by omega), digestSub]
            simp only [Checked.liftM_some, Checked.ok_bind, offset, Checked.pure_eq]
            rw [afterIs, show after.offset = fields.offset + 33 by omega]
      · refine ⟨reference, ?_, names, kinds⟩
        simp [run, decoded]

/-! ### Branches -/

/-- Spans that name children one by one. -/
def Names (encoded : Slice) (spans : List CatalogReference) (children : List Reference) : Prop :=
  spans.mapM (CatalogReference.reference encoded) = some children

theorem Names.cons {encoded : Slice} {span : CatalogReference} {child : Reference}
    {spans : List CatalogReference} {children : List Reference}
    (first : span.reference encoded = some child) (rest : Names encoded spans children) :
    Names encoded (span :: spans) (child :: children) := by
  rw [Names] at rest ⊢
  simp [List.mapM_cons, first, rest]

theorem catalogChildren_of (reads : Reads fields items after) :
    ∀ {index : Nat} {children : List Reference} {occupied : Nat},
    Within encoded base fields → decodeChildren .full index items = .ok (children, occupied) →
      base + fields.offset + 33 * items.length < 2 ^ 32 →
      ∃ spans, catalogChildren encoded base items.length fields = .ok ((spans, occupied), after) ∧
        Names encoded spans children ∧ Within encoded base after := by
  induction reads with
  | none fields =>
      intro index children occupied within made small
      cases made
      exact ⟨[], rfl, rfl, within⟩
  | @next fields middle after item items more run rest inductionHypothesis =>
      intro index children occupied within made small
      have full : BranchMode.full.materializes index = true := rfl
      rw [decodeChildren, if_pos full] at made
      obtain ⟨child, childMade, made⟩ := Checked.bind_eq_ok.mp made
      obtain ⟨⟨others, count⟩, restMade, made⟩ := Checked.bind_eq_ok.mp made
      cases made
      rw [List.length_cons] at small
      obtain ⟨step, withinMiddle, span, ran, named, kinds⟩ :=
        nextCatalogReference_of within run childMade (by omega)
      obtain ⟨spans, ranRest, names, withinAfter⟩ :=
        inductionHypothesis withinMiddle restMade (by omega)
      refine ⟨span :: spans, ?_, names.cons named, withinAfter⟩
      rw [List.length_cons, catalogChildren]
      simp [more, ran, ranRest, kinds]

theorem decodeReference_of_catalog {stop : Nat} {span : CatalogReference}
    (ran : decodeCatalogReference encoded stop item = .ok span) :
    ∃ child, decodeReference item = .ok child ∧ (span.kind = .empty ↔ child = .empty) := by
  obtain ⟨child, made, ran⟩ := Checked.bind_eq_ok.mp ran
  refine ⟨child, made, ?_⟩
  cases child with
  | empty =>
      cases ran
      simp
  | embedded inner =>
      obtain ⟨offset, _, ran⟩ := Checked.bind_eq_ok.mp ran
      cases ran
      simp
  | hashed digest =>
      obtain ⟨offset, _, ran⟩ := Checked.bind_eq_ok.mp ran
      cases ran
      simp

/-- What the fast path accepts, the cursor and the full reference decoder accept. -/
theorem of_nextCatalogReference {span : CatalogReference} (within : Within encoded base fields)
    (ran : nextCatalogReference encoded base fields = .ok (span, after)) :
    ∃ item child, nextField fields = .ok (item, after) ∧ decodeReference item = .ok child := by
  have remaining := fields.input.sub_eq within.inside (Nat.le_refl _)
  rw [nextCatalogReference, remaining] at ran
  simp only [Checked.liftM_some, Checked.ok_bind] at ran
  have length := fields.input.window_len fields.offset (Nat.le_refl fields.input.len)
  have inside := within.inside
  split at ran
  · cases ran
  · rename_i tail opened
    cases ran
    have total : (itemBytes .bytes []).length = 1 := rfl
    have some : 0 < (fields.input.window fields.offset fields.input.len).len := by
      rw [Slice.len, opened]
      exact Nat.succ_pos _
    have content : (fields.input.window fields.offset
        (fields.offset + (itemBytes .bytes []).length)).bytes = itemBytes .bytes [] := by
      have split := fields.input.window_append (show fields.offset ≤ fields.offset + 1 by omega)
        (show fields.offset + 1 ≤ fields.input.len by omega)
      rw [opened, fields.input.window_singleton (by omega)] at split
      rw [total, fields.input.window_singleton (by omega), (List.cons.inj split).1]
      rfl
    have run := next_run fields (by rw [total]; omega) content
    have none : (borrowedItem .bytes fields.input fields.offset 1 0).payload.len = 0 := by
      rw [borrowedItem, makeItem_payload, Nat.sub_zero]
      exact (fields.input.window_len _ (by omega)).trans (by omega)
    refine ⟨_, .empty, nextField_eq_ok.mpr run, ?_⟩
    exact if_pos none
  · rename_i tail opened
    split at ran
    · cases ran
    · rename_i enough
      have windowLength := fields.input.window_len (fields.offset + 1)
        (show fields.offset + 33 ≤ fields.input.len by omega)
      have exact : (fields.input.window (fields.offset + 1) (fields.offset + 33)).bytes.length = 32 := by
        rw [← Slice.len, windowLength]
        omega
      have total : (itemBytes .bytes
          (fields.input.window (fields.offset + 1) (fields.offset + 33)).bytes).length = 33 := by
        rw [bytesItem_of_length exact, List.length_cons, exact]
      have content : (fields.input.window fields.offset (fields.offset + 33)).bytes = itemBytes .bytes
          (fields.input.window (fields.offset + 1) (fields.offset + 33)).bytes := by
        have split := fields.input.window_append (show fields.offset ≤ fields.offset + 1 by omega)
          (show fields.offset + 1 ≤ fields.input.len by omega)
        rw [opened, fields.input.window_singleton (by omega)] at split
        rw [bytesItem_of_length exact, ← fields.input.window_append
            (show fields.offset ≤ fields.offset + 1 by omega)
            (show fields.offset + 1 ≤ fields.offset + 33 by omega),
          fields.input.window_singleton (by omega), (List.cons.inj split).1]
        rfl
      have run := next_run fields (by rw [total]; omega) (by rw [total]; exact content)
      rw [total] at run
      have payloadLen : (borrowedItem .bytes fields.input fields.offset 33
          (fields.input.window (fields.offset + 1) (fields.offset + 33)).bytes.length).payload.len =
            32 := by
        rw [borrowedItem, makeItem_payload, exact]
        exact (fields.input.window_len _ (by omega)).trans (by omega)
      obtain ⟨_, _, ran⟩ := Checked.bind_eq_ok.mp ran
      obtain ⟨_, _, ran⟩ := Checked.bind_eq_ok.mp ran
      cases ran
      refine ⟨_, .hashed ⟨_, payloadLen⟩, nextField_eq_ok.mpr run, ?_⟩
      have nonempty : ¬ (borrowedItem .bytes fields.input fields.offset 33 (fields.input.window
          (fields.offset + 1) (fields.offset + 33)).bytes.length).payload.len = 0 := by omega
      exact (if_neg nonempty).trans (dif_pos payloadLen)
  · obtain ⟨⟨item, middle⟩, run, ran⟩ := Checked.bind_eq_ok.mp ran
    obtain ⟨span', decoded, ran⟩ := Checked.bind_eq_ok.mp ran
    cases ran
    obtain ⟨child, made, _⟩ := decodeReference_of_catalog decoded
    exact ⟨item, child, run, made⟩

theorem of_catalogChildren : ∀ {left : Nat} {fields after : Cursor}
    {spans : List CatalogReference} {occupied : Nat} (index : Nat), Within encoded base fields →
      catalogChildren encoded base left fields = .ok ((spans, occupied), after) →
      ∃ items children count, items.length = left ∧ Reads fields items after ∧
        decodeChildren .full index items = .ok (children, count) ∧ Within encoded base after := by
  intro left
  induction left with
  | zero =>
      intro fields after spans occupied index within ran
      cases ran
      exact ⟨[], [], 0, rfl, .none fields, rfl, within⟩
  | succ left inductionHypothesis =>
      intro fields after spans occupied index within ran
      rw [catalogChildren] at ran
      split at ran
      · cases ran
      · rename_i more
        obtain ⟨⟨span, middle⟩, next, ran⟩ := Checked.bind_eq_ok.mp ran
        obtain ⟨⟨⟨others, count⟩, last⟩, rest, ran⟩ := Checked.bind_eq_ok.mp ran
        cases ran
        obtain ⟨item, child, run, made⟩ := of_nextCatalogReference within next
        have withinMiddle := within.step (next_accepts (nextField_eq_ok.mp run))
        obtain ⟨items, children, counted, length, reads, madeRest, withinAfter⟩ :=
          inductionHypothesis (index + 1) withinMiddle rest
        refine ⟨item :: items, child :: children, counted + if child = .empty then 0 else 1,
          by rw [List.length_cons, length], .next (by simpa using more) run reads, ?_, withinAfter⟩
        have full : BranchMode.full.materializes index = true := rfl
        simp [decodeChildren, full, made, madeRest]

/-! ### Whole nodes -/

theorem parseExact_within (run : parse (parseExact encoded) = .ok item)
    (opened : orInvalidNode item.listCursor = .ok fields) :
    Within encoded (encoded.len - item.payload.len) fields ∧ fields.offset = 0 ∧
      encoded.len - item.payload.len ≤ 9 := by
  have parsed : parseExact encoded = .ok item := by
    cases outcome : parseExact encoded <;> rw [outcome] at run <;> cases run
    rfl
  rw [parseExact] at parsed
  cases next : Cursor.next (Cursor.init encoded) with
  | illegal => simp [next] at parsed
  | fail error after => simp [next] at parsed
  | ok first cursor =>
      rw [next] at parsed
      obtain ⟨_, done, parsed⟩ := Checked.bind_eq_ok.mp parsed
      cases parsed
      have accepts := next_accepts next
      have atEnd : cursor.offset = encoded.len := by
        have isDone : cursor.isDone = true := by
          by_contra more
          simp [Cursor.expectDone, more] at done
        have same := accepts.sameInput
        rw [Cursor.isDone, beq_iff_eq, same] at isDone
        exact isDone
      have whole : item.encoded = encoded := by
        rw [accepts.encoded, atEnd]
        apply Slice.ext
        simp [Cursor.init, Slice.window, Slice.len]
      cases item with
      | bytes span => cases opened
      | list span =>
          cases opened
          have canonical : encoded.bytes = listItem span.payload.bytes := by
            have := accepts.canonical
            rwa [whole] at this
          have payloadFits := span.payload.fits
          rw [usizeMax_eq] at payloadFits
          have header : (lengthPrefix 0xc0 0xf7 span.payload.bytes.length).length ≤ 9 := by
            rw [lengthPrefix]
            split
            · simp
            · have width : byteWidth span.payload.bytes.length ≤ 8 :=
                byteWidth_le_eight (by rw [usizeMax_eq]; omega)
              rw [List.length_cons, minimalBytes_length]
              omega
          have total : encoded.len =
              (lengthPrefix 0xc0 0xf7 span.payload.bytes.length).length + span.payload.len := by
            rw [Slice.len, canonical, listItem, List.length_append, ← Slice.len]
          have base : encoded.len - span.payload.len =
              (lengthPrefix 0xc0 0xf7 span.payload.bytes.length).length := by omega
          refine ⟨⟨?_, ?_, Nat.zero_le _⟩, rfl, by rw [Item.payload, base]; exact header⟩
          · rw [Item.payload, base, canonical, listItem, List.drop_left]
            rfl
          · rw [Item.payload, base]
            exact total.symm

theorem Reads.two {first second : Item} (reads : Reads fields [first, second] after) :
    ∃ middle, fields.isDone = false ∧
      nextField fields = .ok (first, middle) ∧ middle.isDone = false ∧
      nextField middle = .ok (second, after) := by
  cases reads with
  | next more run rest =>
      cases rest with
      | next more' run' rest =>
          cases rest
          exact ⟨_, more, run, more', run'⟩

theorem Reads.append {left right : List Item} (reads : Reads fields (left ++ right) after) :
    ∃ middle, Reads fields left middle ∧ Reads middle right after := by
  induction left generalizing fields with
  | nil => exact ⟨fields, .none fields, reads⟩
  | cons item rest inductionHypothesis =>
      cases reads with
      | next more run rest =>
          obtain ⟨middle, first, second⟩ := inductionHypothesis rest
          exact ⟨middle, .next more run first, second⟩

theorem Reads.trans {middle : Cursor} {left right : List Item} (first : Reads fields left middle)
    (second : Reads middle right after) : Reads fields (left ++ right) after := by
  induction first with
  | none fields => exact second
  | next more run rest inductionHypothesis => exact .next more run (inductionHypothesis second)

theorem decodeFields_eq_ok {mode : BranchMode} {node : Node} :
    decodeFields false mode items = .ok node ↔
      (∃ first second short, items = [first, second] ∧ decodeShort first second = .ok short ∧
        node = short.elim .leaf .extension) ∨
      items.length = 17 ∧ decodeBranch mode items = .ok node := by
  rcases items with _ | ⟨first, _ | ⟨second, _ | ⟨third, rest⟩⟩⟩
  · simp [decodeFields]
  · simp [decodeFields]
  · cases shortDecoded : decodeShort first second with
    | illegal => simp [decodeFields, shortDecoded]
    | fail error => simp [decodeFields, shortDecoded]
    | ok short => cases short <;> simp [decodeFields, shortDecoded, eq_comm]
  · simp only [decodeFields, Bool.false_eq_true, false_and, if_false]
    constructor
    · intro eq
      split at eq
      · exact .inr ⟨‹_›, eq⟩
      · cases eq
    · rintro (⟨_, _, _, isTwo, _⟩ | ⟨seventeen, eq⟩)
      · cases isTwo
      · rw [if_pos seventeen, eq]

/-- A branch: two children, fourteen more, and the value. -/
theorem exists_fields (seventeen : items.length = 17) :
    ∃ first second others last, items = first :: second :: (others ++ [last]) ∧
      others.length = 14 := by
  rcases items with _ | ⟨first, _ | ⟨second, rest⟩⟩
  · cases seventeen
  · cases seventeen
  · obtain ⟨others, last, rfl⟩ := List.eq_nil_or_concat rest |>.resolve_left
      (by rintro rfl; cases seventeen)
    refine ⟨first, second, others, last, by rw [List.concat_eq_append], ?_⟩
    simpa using seventeen

theorem decodeBranch_eq_ok {first second last : Item} {others : List Item} {node : Node}
    (fourteen : others.length = 14) :
    decodeBranch .full (first :: second :: (others ++ [last])) = .ok node ↔
      ∃ child0 child1 children count value shown, decodeReference first = .ok child0 ∧
        decodeReference second = .ok child1 ∧
        decodeChildren .full 2 others = .ok (children, count) ∧
        orInvalidNode last.asBytes = .ok value ∧
        branchValue value (count + (if child1 = .empty then 0 else 1) +
          if child0 = .empty then 0 else 1) = .ok shown ∧
        node = .branch { children := child0 :: child1 :: children, value := shown } := by
  have taken : (first :: second :: (others ++ [last])).take 16 = first :: second :: others := by
    simp [fourteen]
  have lastOf : (first :: second :: (others ++ [last]))[16]? = some last := by
    simp [fourteen]
  have full : ∀ index, BranchMode.full.materializes index = true := fun _ => rfl
  rw [decodeBranch, taken, lastOf]
  simp only [decodeChildren, full, if_true, Checked.bind_eq_ok, Checked.pure_eq, Checked.liftM_some,
    Checked.ok.injEq]
  constructor
  · rintro ⟨_, ⟨child0, made0, _, ⟨child1, made1, ⟨children, count⟩, made, rfl⟩, rfl⟩, _, rfl,
      value, valueOf, shown, shownOf, rfl⟩
    exact ⟨child0, child1, children, count, value, shown, made0, made1, made, valueOf, shownOf, rfl⟩
  · rintro ⟨child0, child1, children, count, value, shown, made0, made1, made, valueOf, shownOf, rfl⟩
    exact ⟨_, ⟨child0, made0, _, ⟨child1, made1, (children, count), made, rfl⟩, rfl⟩, last, rfl,
      value, valueOf, shown, shownOf, rfl⟩

/-- A node the full decoder makes is the node the catalog decoder names. -/
theorem decodeForCatalog_of {node : Node} (decoded : decode encoded false = .ok node) :
    ∃ catalog, decodeForCatalog encoded = .ok catalog ∧ catalog.node encoded = some node := by
  rw [decode, decodeWithBranchMode] at decoded
  obtain ⟨item, parsed, decoded⟩ := Checked.bind_eq_ok.mp decoded
  obtain ⟨fields, opened, decoded⟩ := Checked.bind_eq_ok.mp decoded
  obtain ⟨items, collected, decoded⟩ := Checked.bind_eq_ok.mp decoded
  obtain ⟨within, start, header⟩ := parseExact_within parsed opened
  obtain ⟨_, after, reads, ends⟩ := collectFields_eq_ok.mp collected
  rw [decodeForCatalog]
  simp only [parsed, opened, Checked.ok_bind]
  rcases decodeFields_eq_ok.mp decoded with ⟨first, second, short, rfl, made, rfl⟩ | ⟨seventeen, made⟩
  · obtain ⟨middle, more, run, more', run'⟩ := reads.two
    simp only [more, run, more', run', ends, made, Checked.ok_bind, Bool.false_eq_true, if_false,
      if_true]
    cases short with
    | inl leaf => exact ⟨_, rfl, rfl⟩
    | inr extension => exact ⟨_, rfl, rfl⟩
  · obtain ⟨first, second, others, last, rfl, fourteen⟩ := exists_fields seventeen
    obtain ⟨child0, child1, children, count, value, shown, made0, made1, madeRest, valueOf, shownOf,
      rfl⟩ := (decodeBranch_eq_ok fourteen).mp made
    obtain ⟨afterSecond, readsTwo, readsRest⟩ :=
      (show Reads fields ([first, second] ++ (others ++ [last])) after from reads).append
    obtain ⟨afterOthers, readsOthers, readsLast⟩ := readsRest.append
    obtain ⟨afterFirst, more, run, more', run'⟩ := readsTwo.two
    have accepts0 := next_accepts (nextField_eq_ok.mp run)
    have within0 := within.step accepts0
    have accepts1 := next_accepts (nextField_eq_ok.mp run')
    obtain ⟨step0, span0, ran0, named0, kind0⟩ :=
      decodeCatalogReference_of within accepts0 made0 (by omega)
    obtain ⟨step1, span1, ran1, named1, kind1⟩ :=
      decodeCatalogReference_of within0 accepts1 made1 (by omega)
    obtain ⟨spans, ranRest, names, _⟩ :=
      catalogChildren_of readsOthers (within0.step accepts1) madeRest (by omega)
    rw [fourteen] at ranRest
    have notDone : afterSecond.isDone = false := by
      cases readsOthers with
      | none => cases fourteen
      | next more run rest => exact more
    cases readsLast with
    | next moreLast runLast rest =>
        cases rest
        refine ⟨.branch { children := span0 :: span1 :: spans, value := shown }, ?_, ?_⟩
        · simp only [more, run, more', run', notDone, ran0, ran1, ranRest, moreLast, runLast, valueOf,
            ends, kind0, kind1, Checked.ok_bind, Bool.false_eq_true, if_false, not_true_eq_false]
          rw [Nat.add_right_comm, shownOf]
          rfl
        · have all := (names.cons named1).cons named0
          rw [Names] at all
          simp [CatalogNode.node, all]

/-- A node the catalog decoder accepts is one the full decoder makes. -/
theorem of_decodeForCatalog {catalog : CatalogNode}
    (decoded : decodeForCatalog encoded = .ok catalog) :
    ∃ node, decode encoded false = .ok node := by
  rw [decodeForCatalog] at decoded
  obtain ⟨item, parsed, decoded⟩ := Checked.bind_eq_ok.mp decoded
  obtain ⟨fields, opened, decoded⟩ := Checked.bind_eq_ok.mp decoded
  obtain ⟨within, start, header⟩ := parseExact_within parsed opened
  have decodes : ∀ {items : List Item} {after : Cursor} {node : Node}, items.length ≤ 17 →
      Reads fields items after → after.isDone = true →
        decodeFields false .full items = .ok node → decode encoded false = .ok node := by
    intro items after node short reads ends made
    rw [decode, decodeWithBranchMode]
    simp [parsed, opened, collectFields_eq_ok.mpr ⟨short, after, reads, ends⟩, made]
  split at decoded
  · cases decoded
  · rename_i more
    obtain ⟨⟨first, afterFirst⟩, run, decoded⟩ := Checked.bind_eq_ok.mp decoded
    dsimp only at decoded
    split at decoded
    · cases decoded
    · rename_i more'
      obtain ⟨⟨second, afterSecond⟩, run', decoded⟩ := Checked.bind_eq_ok.mp decoded
      dsimp only at decoded
      have readsTwo : Reads fields [first, second] afterSecond :=
        .next (by simpa using more) run (.next (by simpa using more') run' (.none _))
      split at decoded
      · rename_i ends
        obtain ⟨short, made, _⟩ := Checked.bind_eq_ok.mp decoded
        exact ⟨_, decodes (by simp) readsTwo ends
          (decodeFields_eq_ok.mpr (.inl ⟨first, second, short, rfl, made, rfl⟩))⟩
      · obtain ⟨span0, ran0, decoded⟩ := Checked.bind_eq_ok.mp decoded
        obtain ⟨span1, ran1, decoded⟩ := Checked.bind_eq_ok.mp decoded
        obtain ⟨⟨⟨spans, occupied⟩, afterOthers⟩, ranRest, decoded⟩ := Checked.bind_eq_ok.mp decoded
        dsimp only at decoded
        obtain ⟨child0, made0, kind0⟩ := decodeReference_of_catalog ran0
        obtain ⟨child1, made1, kind1⟩ := decodeReference_of_catalog ran1
        have withinTwo := (within.step (next_accepts (nextField_eq_ok.mp run))).step
          (next_accepts (nextField_eq_ok.mp run'))
        obtain ⟨others, children, count, fourteen, readsOthers, madeRest, withinOthers⟩ :=
          of_catalogChildren 2 withinTwo ranRest
        split at decoded
        · cases decoded
        · rename_i moreLast
          obtain ⟨⟨last, after⟩, runLast, decoded⟩ := Checked.bind_eq_ok.mp decoded
          obtain ⟨value, valueOf, decoded⟩ := Checked.bind_eq_ok.mp decoded
          dsimp only at decoded
          split at decoded
          · cases decoded
          · rename_i ends
            obtain ⟨shown, shownOf, decoded⟩ := Checked.bind_eq_ok.mp decoded
            have accepts0 := next_accepts (nextField_eq_ok.mp run)
            have within0 := within.step accepts0
            obtain ⟨step0, _⟩ := decodeCatalogReference_of within accepts0 made0 (by omega)
            obtain ⟨step1, _⟩ := decodeCatalogReference_of within0
              (next_accepts (nextField_eq_ok.mp run')) made1 (by omega)
            obtain ⟨_, again, _⟩ := catalogChildren_of readsOthers withinTwo madeRest (by omega)
            rw [fourteen, ranRest] at again
            cases again
            simp only [kind0, kind1] at shownOf
            rw [Nat.add_right_comm] at shownOf
            have isDone : after.isDone = true := by simpa using ends
            have reads := readsTwo.trans (readsOthers.trans
              (.next (by simpa using moreLast) runLast (.none after)))
            have long : (first :: second :: (others ++ [last])).length = 17 := by simp [fourteen]
            exact ⟨_, decodes (Nat.le_of_eq long) reads isDone
              (decodeFields_eq_ok.mpr (.inr ⟨long, (decodeBranch_eq_ok fourteen).mpr
                ⟨child0, child1, children, _, value, shown, made0, made1, madeRest, valueOf, shownOf,
                  rfl⟩⟩))⟩

/--
The catalog decoder accepts the nodes the full decoder accepts, and its spans
name the same node.  The lookup decoder gives the node or the error of the full
one, with the children of a branch that no key selects left empty.
-/
theorem decoders_agree (encoded : Slice) :
    ((∃ catalog, decodeForCatalog encoded = .ok catalog) ↔
        ∃ node, decode encoded false = .ok node) ∧
      (∀ catalog node, decodeForCatalog encoded = .ok catalog → decode encoded false = .ok node →
        catalog.node encoded = some node) ∧
      ∀ requireBranch selectedChild, decodeForLookup encoded requireBranch selectedChild =
        (decode encoded requireBranch >>= fun node =>
          pure (node.keep (.ofSelected selectedChild))) := by
  refine ⟨⟨?_, ?_⟩, ?_, ?_⟩
  · rintro ⟨catalog, decoded⟩
    exact of_decodeForCatalog decoded
  · rintro ⟨node, decoded⟩
    obtain ⟨catalog, ran, _⟩ := decodeForCatalog_of decoded
    exact ⟨catalog, ran⟩
  · intro catalog node ran decoded
    obtain ⟨catalog', ran', names⟩ := decodeForCatalog_of decoded
    rw [ran] at ran'
    cases ran'
    exact names
  · intro requireBranch selectedChild
    exact decodeWithBranchMode_eq encoded requireBranch _

/-- A branch of two inline children, read for a key that ends at it. -/
theorem lookup_shows_less : ∃ encoded node, decode encoded false = .ok node ∧
    decodeForLookup encoded false none ≠ .ok node := by
  refine ⟨⟨0xd1 :: 0xc0 :: 0xc0 :: List.replicate 15 0x80, by decide⟩,
    .branch { children := .embedded ⟨[0xc0], by decide⟩ :: .embedded ⟨[0xc0], by decide⟩ ::
        List.replicate 14 .empty, value := none }, ?_, ?_⟩
  · decide +kernel
  · decide +kernel

end EvmZig.Mpt
