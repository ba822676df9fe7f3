import EvmZig.Rlp.CodecLaws
import Mathlib.Algebra.BigOperators.Group.List.Basic

/-!
# Lawful codecs

A lawful codec has one encoding per value, a single canonical item.  Decoding
reads exactly that encoding wherever it stands and charges a cost that depends
on the value only, and whatever decoding accepts is the encoding of the value
it returns.
-/

set_option autoImplicit false

namespace EvmZig.Rlp

open Zig

variable {budget : Budget} {depth levels : Nat} {decoder : Decoder}

/-! ## Cost of a decode -/

/-- Items visited and bytes allocated by a decode. -/
@[ext] structure Cost where
  items : Nat
  bytes : Nat
  deriving DecidableEq, Repr

namespace Cost

instance : Add Cost := ⟨fun left right => ⟨left.items + right.items, left.bytes + right.bytes⟩⟩

instance : Zero Cost := ⟨⟨0, 0⟩⟩

@[simp] theorem add_items (left right : Cost) :
    (left + right).items = left.items + right.items := rfl

@[simp] theorem add_bytes (left right : Cost) :
    (left + right).bytes = left.bytes + right.bytes := rfl

@[simp] theorem zero_items : (0 : Cost).items = 0 := rfl

@[simp] theorem zero_bytes : (0 : Cost).bytes = 0 := rfl

/-- One visited item. -/
def item : Cost := ⟨1, 0⟩

def allocation (bytes : Nat) : Cost := ⟨0, bytes⟩

@[simp] theorem item_items : item.items = 1 := rfl

@[simp] theorem item_bytes : item.bytes = 0 := rfl

@[simp] theorem allocation_items (bytes : Nat) : (allocation bytes).items = 0 := rfl

@[simp] theorem allocation_bytes (bytes : Nat) : (allocation bytes).bytes = bytes := rfl

end Cost

namespace Budget

def charge (budget : Budget) (cost : Cost) : Budget :=
  { budget with
    visitedItems := budget.visitedItems + cost.items
    allocatedBytes := budget.allocatedBytes + cost.bytes }

theorem charge_charge (budget : Budget) (first second : Cost) :
    (budget.charge first).charge second = budget.charge (first + second) := by
  simp [charge, Nat.add_assoc]

@[simp] theorem charge_limits (budget : Budget) (cost : Cost) :
    (budget.charge cost).limits = budget.limits := rfl

/-- The budget covers `cost` and `levels` more levels of nesting. -/
structure Affords (budget : Budget) (depth : Nat) (cost : Cost) (levels : Nat) : Prop where
  items : budget.visitedItems + cost.items ≤ min budget.limits.maxItems usizeMax
  bytes : budget.allocatedBytes + cost.bytes ≤ min budget.limits.maxAllocatedBytes usizeMax
  nesting : levels = 0 ∨ depth + levels ≤ min budget.limits.maxDepth usizeMax

theorem Affords.left {inner : Nat} {first second : Cost}
    (affords : budget.Affords depth (first + second) levels) (shallow : inner ≤ levels) :
    budget.Affords depth first inner := by
  obtain ⟨items, bytes, nesting⟩ := affords
  simp only [Cost.add_items, Cost.add_bytes] at items bytes
  exact ⟨by omega, by omega, by omega⟩

theorem Affords.right {inner : Nat} {first second : Cost}
    (affords : budget.Affords depth (first + second) levels) (shallow : inner ≤ levels) :
    (budget.charge first).Affords depth second inner := by
  obtain ⟨items, bytes, nesting⟩ := affords
  simp only [Cost.add_items, Cost.add_bytes] at items bytes
  exact ⟨by simp only [charge]; omega, by simp only [charge]; omega,
    by simp only [charge_limits]; omega⟩

theorem Affords.deeper {cost : Cost} (affords : budget.Affords depth cost (levels + 1)) :
    budget.Affords (depth + 1) cost levels := by
  obtain ⟨items, bytes, nesting⟩ := affords
  exact ⟨items, bytes, by omega⟩

theorem ensureItems_eq_ok {additional : Nat} : budget.ensureItems additional = .ok () ↔
      budget.visitedItems + additional ≤ min budget.limits.maxItems usizeMax := by
  unfold ensureItems
  split
  · simp; omega
  · split
    · simp; omega
    · simp; omega

theorem ensureAllocation_eq_ok {bytes : Nat} : budget.ensureAllocation bytes = .ok () ↔
      budget.allocatedBytes + bytes ≤ min budget.limits.maxAllocatedBytes usizeMax := by
  unfold ensureAllocation
  split
  · simp; omega
  · split
    · simp; omega
    · simp; omega

theorem commitItems_eq_ok {after : Budget} {additional : Nat} :
    budget.commitItems additional = .ok after ↔
      budget.visitedItems + additional ≤ min budget.limits.maxItems usizeMax ∧
        after = budget.charge ⟨additional, 0⟩ := by
  unfold commitItems
  rw [Checked.bind_eq_ok]
  constructor
  · rintro ⟨⟨⟩, ensured, run⟩
    have room := ensureItems_eq_ok.mp ensured
    rw [addUsize_eq (by omega)] at run
    cases run
    exact ⟨room, rfl⟩
  · rintro ⟨room, rfl⟩
    refine ⟨(), ensureItems_eq_ok.mpr room, ?_⟩
    rw [addUsize_eq (by omega)]
    rfl

theorem commitAllocation_eq {bytes : Nat} (room : budget.allocatedBytes + bytes ≤ usizeMax) :
    budget.commitAllocation bytes = some (budget.charge (.allocation bytes)) := by
  simp [commitAllocation, addUsize_eq room, charge]

end Budget

/-! ## Reading one encoding -/

section Reading

variable {α : Type}

/-- `decode` reads the encoding of a value wherever it stands. -/
def Reads (decode : Action Decoder DecodeError α) (encode : α → List UInt8) (cost : α → Cost)
    (levels : Nat) : Prop :=
  ∀ (value : α) (input : Slice) (before rest : List UInt8) (budget : Budget) (depth : Nat),
    input.bytes = before ++ encode value ++ rest → budget.Affords depth (cost value) levels →
    decode ⟨⟨input, before.length⟩, budget, depth⟩ =
      .ok value ⟨⟨input, before.length + (encode value).length⟩, budget.charge (cost value), depth⟩

/-- `value` was read from the window between two decoder states. -/
structure Consumed (encoded : List UInt8) (cost : Cost) (decoder after : Decoder) : Prop where
  inside : decoder.cursor.offset + encoded.length ≤ decoder.cursor.input.len
  window : (decoder.cursor.input.window decoder.cursor.offset
    (decoder.cursor.offset + encoded.length)).bytes = encoded
  cursor : after.cursor = ⟨decoder.cursor.input, decoder.cursor.offset + encoded.length⟩
  budget : after.budget = decoder.budget.charge cost
  depth : after.depth = decoder.depth
  allocated : decoder.budget.allocatedBytes + cost.bytes ≤
    max decoder.budget.allocatedBytes usizeMax

/-- What `decode` accepts is the encoding of the value it returns. -/
def Sound (decode : Action Decoder DecodeError α) (encode : α → List UInt8) (cost : α → Cost) :
    Prop :=
  ∀ {decoder after : Decoder} {value : α}, decode decoder = .ok value after →
    decoder.cursor.offset ≤ decoder.cursor.input.len →
      Consumed (encode value) (cost value) decoder after

theorem Consumed.nil (inside : decoder.cursor.offset ≤ decoder.cursor.input.len) :
    Consumed [] 0 decoder decoder where
  inside := inside
  window := by simp [Slice.window]
  cursor := rfl
  budget := rfl
  depth := rfl
  allocated := le_max_left _ _

theorem Consumed.append {first second : List UInt8} {firstCost secondCost : Cost}
    {middle after : Decoder} (left : Consumed first firstCost decoder middle)
    (right : Consumed second secondCost middle after) :
    Consumed (first ++ second) (firstCost + secondCost) decoder after := by
  obtain ⟨leftInside, leftWindow, leftCursor, leftBudget, leftDepth, leftAllocated⟩ := left
  obtain ⟨rightInside, rightWindow, rightCursor, rightBudget, rightDepth, rightAllocated⟩ := right
  rw [leftCursor] at rightInside rightWindow rightCursor
  rw [leftBudget] at rightBudget rightAllocated
  simp only at rightInside rightWindow rightCursor
  refine ⟨?_, ?_, ?_, ?_, ?_, ?_⟩
  · rw [List.length_append]
    omega
  · have joined := decoder.cursor.input.window_append
      (Nat.le_add_right decoder.cursor.offset first.length)
      (Nat.le_add_right (decoder.cursor.offset + first.length) second.length)
    rw [leftWindow, rightWindow] at joined
    rw [List.length_append, ← Nat.add_assoc]
    exact joined.symm
  · rw [rightCursor, List.length_append, Nat.add_assoc]
  · rw [rightBudget, Budget.charge_charge]
  · rw [rightDepth, leftDepth]
  · simp only [Budget.charge, Cost.add_bytes] at rightAllocated ⊢
    omega

/-- The value of `first` goes on to `next`, which reads the rest. -/
theorem Reads.bind {β : Type} {first : Action Decoder DecodeError α}
    {second : Action Decoder DecodeError β} {firstEncode : α → List UInt8}
    {secondEncode : β → List UInt8} {firstCost : α → Cost} {secondCost : β → Cost}
    {firstLevels secondLevels : Nat} (firstReads : Reads first firstEncode firstCost firstLevels)
    (secondReads : Reads second secondEncode secondCost secondLevels) :
    Reads (do let left ← first; return (left, ← second))
      (fun pair => firstEncode pair.1 ++ secondEncode pair.2)
      (fun pair => firstCost pair.1 + secondCost pair.2) (max firstLevels secondLevels) := by
  intro pair input before rest budget depth content affords
  have firstRun := firstReads pair.1 input before (secondEncode pair.2 ++ rest) budget depth
    (by rw [content]; simp) (affords.left (le_max_left _ _))
  have secondRun := secondReads pair.2 input (before ++ firstEncode pair.1) rest
    (budget.charge (firstCost pair.1)) depth (by rw [content]; simp)
    (affords.right (le_max_right _ _))
  rw [List.length_append] at secondRun
  simp only [Action.bind_run, firstRun, secondRun, Action.pure_run, Budget.charge_charge,
    List.length_append, Nat.add_assoc]

theorem Sound.bind {β : Type} {first : Action Decoder DecodeError α}
    {second : Action Decoder DecodeError β} {firstEncode : α → List UInt8}
    {secondEncode : β → List UInt8} {firstCost : α → Cost} {secondCost : β → Cost}
    (firstSound : Sound first firstEncode firstCost)
    (secondSound : Sound second secondEncode secondCost) :
    Sound (do let left ← first; return (left, ← second))
      (fun pair => firstEncode pair.1 ++ secondEncode pair.2)
      (fun pair => firstCost pair.1 + secondCost pair.2) := by
  intro decoder after pair run inside
  rw [Action.bind_run] at run
  cases firstRun : first decoder with
  | illegal => simp [firstRun] at run
  | fail error middle => simp [firstRun] at run
  | ok left middle =>
    have leftConsumed := firstSound firstRun inside
    simp only [firstRun, Action.bind_run] at run
    cases secondRun : second middle with
    | illegal => simp [secondRun] at run
    | fail error after => simp [secondRun] at run
    | ok right last =>
      simp only [secondRun, Action.pure_run] at run
      cases run
      refine leftConsumed.append (secondSound secondRun ?_)
      rw [leftConsumed.cursor]
      exact leftConsumed.inside

/-! ## Single items -/

theorem next_reads (kind : Kind) {input : Slice} {before payload rest : List UInt8} {cost : Cost}
    (content : input.bytes = before ++ itemBytes kind payload ++ rest)
    (affords : budget.Affords depth (.item + cost) levels) :
    ∃ item, Decoder.next ⟨⟨input, before.length⟩, budget, depth⟩ =
        .ok item ⟨⟨input, before.length + (itemBytes kind payload).length⟩,
          budget.charge .item, depth⟩ ∧
      item.kind = kind ∧ item.payload.bytes = payload := by
  obtain ⟨item, nextRun, kindEq, payloadEq, -⟩ := next_embedded kind content
  have room := affords.items
  simp only [Cost.add_items, Cost.item_items] at room
  have committed : budget.commitItems 1 = .ok (budget.charge .item) :=
    Budget.commitItems_eq_ok.mpr ⟨by omega, rfl⟩
  refine ⟨item, ?_, kindEq, payloadEq⟩
  simp only [Decoder.next, Decoder.onCursor, Decoder.setBudget, Action.bind_run, nextRun,
    Action.read_run, committed, Action.liftM_ok, Action.modify_run, Action.pure_run]

theorem next_sound {after : Decoder} {item : Item} (run : Decoder.next decoder = .ok item after) :
    Consumed (itemBytes item.kind item.payload.bytes) .item decoder after := by
  simp only [Decoder.next, Decoder.onCursor, Decoder.setBudget, Action.bind_run,
    Action.read_run] at run
  cases cursorRun : Cursor.next decoder.cursor with
  | illegal => simp [cursorRun] at run
  | fail error cursor => simp [cursorRun] at run
  | ok parsed cursor =>
    have accepts := next_accepts cursorRun
    simp only [cursorRun] at run
    cases committed : decoder.budget.commitItems 1 with
    | illegal => simp [committed] at run
    | fail error => simp [committed] at run
    | ok budget =>
      simp only [committed, Action.liftM_ok, Action.modify_run, Action.pure_run,
        Outcome.ok.injEq] at run
      obtain ⟨rfl, rfl⟩ := run
      have charged := (Budget.commitItems_eq_ok.mp committed).2
      have advances := accepts.advances
      have encodedLen : (itemBytes parsed.kind parsed.payload.bytes).length =
          cursor.offset - decoder.cursor.offset := by
        rw [← accepts.canonical, accepts.encoded]
        exact decoder.cursor.input.window_len decoder.cursor.offset accepts.inside
      have stop : decoder.cursor.offset + (itemBytes parsed.kind parsed.payload.bytes).length =
          cursor.offset := by omega
      refine ⟨?_, ?_, ?_, charged, rfl, le_max_left _ _⟩
      · rw [stop]
        exact accepts.inside
      · rw [stop, ← accepts.encoded]
        exact accepts.canonical
      · rw [stop, ← accepts.sameInput]

/-- A codec over one byte-string item, with the payload of each value. -/
theorem scalar_reads {project : Item → Checked ParseError α} {payload : α → List UInt8}
    (accepts : ∀ item value, item.kind = .bytes → item.payload.bytes = payload value →
      project item = .ok value) :
    Reads (do Action.attempt .parse (project (← Decoder.next)))
      (fun value => bytesItem (payload value)) (fun _ => .item) 0 := by
  intro value input before rest budget depth content affords
  obtain ⟨item, run, kindEq, payloadEq⟩ := next_reads .bytes content
    (show budget.Affords depth (.item + 0) 0 from affords)
  simp only [Action.bind_run, run, accepts item value kindEq payloadEq, Action.attempt_ok]
  rfl

theorem scalar_sound {project : Item → Checked ParseError α} {payload : α → List UInt8}
    (accepted : ∀ item value, project item = .ok value →
      item.kind = .bytes ∧ item.payload.bytes = payload value) :
    Sound (do Action.attempt .parse (project (← Decoder.next)))
      (fun value => bytesItem (payload value)) (fun _ => .item) := by
  intro decoder after value run inside
  rw [Action.bind_run] at run
  cases nextRun : Decoder.next decoder with
  | illegal => simp [nextRun] at run
  | fail error middle => simp [nextRun] at run
  | ok item middle =>
    simp only [nextRun] at run
    cases projected : project item with
    | illegal => simp [projected, Action.attempt] at run
    | fail error => simp [projected] at run
    | ok result =>
      rw [projected, Action.attempt_ok] at run
      cases run
      obtain ⟨kindEq, payloadEq⟩ := accepted item _ projected
      have consumed := next_sound nextRun
      rw [kindEq, payloadEq] at consumed
      exact consumed

end Reading

theorem asBytes_eq_ok {item : Item} {value : Slice} :
    item.asBytes = .ok value ↔ item.kind = .bytes ∧ item.payload = value := by
  cases item <;> simp [Item.asBytes, Item.kind, Item.payload]

theorem asInt_eq_ok {item : Item} {bits value : Nat} (narrow : bits ≤ 256)
    (run : item.asInt bits = .ok value) :
    item.kind = .bytes ∧ item.payload.bytes = minimalBytes value ∧ value < 2 ^ bits := by
  obtain ⟨bytesValue, bytesRun, run⟩ := Checked.bind_eq_ok.mp run
  obtain ⟨kindEq, rfl⟩ := asBytes_eq_ok.mp bytesRun
  refine ⟨kindEq, ?_⟩
  cases payloadEq : item.payload.bytes with
  | nil =>
      simp only [payloadEq, Checked.pure_eq, Checked.ok.injEq] at run
      subst run
      exact ⟨rfl, Nat.two_pow_pos bits⟩
  | cons first rest =>
      simp only [payloadEq] at run
      by_cases zero : first = 0
      · simp [zero] at run
      by_cases wide : byteLen bits < item.payload.len
      · simp [zero, wide] at run
      simp only [if_neg zero, if_neg wide] at run
      have length : (first :: rest).length ≤ 32 := by
        simp only [Slice.len, payloadEq, byteLen] at wide
        omega
      rw [foldl_shiftIn (show 8 * (first :: rest).length ≤ 256 by omega)] at run
      by_cases bound : beValue (first :: rest) < 2 ^ bits
      · simp only [if_pos bound, Checked.pure_eq, Checked.ok.injEq] at run
        subst run
        exact ⟨(minimalBytes_beValue (by simpa using zero)).symm, bound⟩
      · simp [bound] at run

/-! ## Lawful codecs -/

structure LawfulCodec {α : Type} (codec : Codec α) where
  encode : α → List UInt8
  cost : α → Cost
  levels : Nat
  encodedLen_eq : ∀ value, codec.encodedLen value = lengthResult (encode value).length
  writes : ∀ value, (encode value).length ≤ usizeMax → Writes (codec.encodeTo value) (encode value)
  item : ∀ value, ∃ kind payload, encode value = itemBytes kind payload
  visits : ∀ value, 1 ≤ (cost value).items
  visits_le : ∀ value, (cost value).items ≤ (encode value).length
  reads : Reads codec.decodeFrom encode cost levels
  sound : Sound codec.decodeFrom encode cost

namespace LawfulCodec

def bytes : LawfulCodec Codec.bytes where
  encode value := bytesItem value.bytes
  cost _ := .item
  levels := 0
  encodedLen_eq := bytesEncodedLen_eq
  writes value _ := Encoder.bytes_writes value
  item value := ⟨.bytes, value.bytes, rfl⟩
  visits _ := Nat.le_refl _
  visits_le value := itemBytes_length_pos .bytes _
  reads := scalar_reads fun item value kindEq payloadEq =>
    asBytes_eq_ok.mpr ⟨kindEq, Slice.ext payloadEq⟩
  sound := scalar_sound fun item value run => by
    obtain ⟨kindEq, rfl⟩ := asBytes_eq_ok.mp run
    exact ⟨kindEq, rfl⟩

/-- `@memcpy` of the exact payload. -/
def fixedProject (len : Nat) (item : Item) : Checked ParseError (Codec.FixedArray len) := do
  let bytes ← item.asBytesExact len
  if exact : bytes.bytes.length = len then
    return ⟨bytes.bytes, exact⟩
  Checked.illegal

theorem fixedBytes_decodeFrom (len : Nat) (fits : len ≤ usizeMax) :
    (Codec.fixedBytes len fits).decodeFrom =
      (do Action.attempt .parse (fixedProject len (← Decoder.next))) := by
  funext decoder
  simp only [Codec.fixedBytes, Decoder.nextBytesExact, Action.bind_run]
  cases Decoder.next decoder with
  | illegal => rfl
  | fail error after => rfl
  | ok item after =>
    simp only [fixedProject]
    cases item.asBytesExact len with
    | illegal => rfl
    | fail error => rfl
    | ok value =>
      by_cases exact : value.bytes.length = len
      · simp [exact]
      · simp [exact, Action.attempt, Action.illegal]

theorem fixedProject_eq_ok {len : Nat} {item : Item} {value : Codec.FixedArray len} :
    fixedProject len item = .ok value ↔ item.kind = .bytes ∧ item.payload.bytes = value.val := by
  simp only [fixedProject, Item.asBytesExact]
  cases item with
  | list span => simp [Item.asBytes, Item.kind]
  | bytes span =>
    by_cases exact : span.payload.bytes.length = len
    · simp [Item.asBytes, Item.kind, Item.payload, Slice.len, exact, Subtype.ext_iff]
    · have differs : span.payload.bytes ≠ value.val := by
        intro same
        exact exact (by rw [same, value.property])
      simp [Item.asBytes, Item.kind, Item.payload, Slice.len, exact, differs]

def fixedBytes (len : Nat) (fits : len ≤ usizeMax) : LawfulCodec (Codec.fixedBytes len fits) where
  encode value := bytesItem value.val
  cost _ := .item
  levels := 0
  encodedLen_eq value := bytesEncodedLen_eq (value.slice fits)
  writes value _ := Encoder.bytes_writes (value.slice fits)
  item value := ⟨.bytes, value.val, rfl⟩
  visits _ := Nat.le_refl _
  visits_le value := itemBytes_length_pos .bytes _
  reads := by
    rw [fixedBytes_decodeFrom]
    exact scalar_reads fun item value kindEq payloadEq =>
      fixedProject_eq_ok.mpr ⟨kindEq, payloadEq⟩
  sound := by
    rw [fixedBytes_decodeFrom]
    exact scalar_sound fun item value run => fixedProject_eq_ok.mp run

def uintProject (bits : Nat) (item : Item) : Checked ParseError (Fin (2 ^ bits)) := do
  let value ← item.asInt bits
  if bound : value < 2 ^ bits then
    return ⟨value, bound⟩
  Checked.illegal

theorem uint_decodeFrom (bits : Nat) :
    (Codec.uint bits).decodeFrom =
      (do Action.attempt .parse (uintProject bits (← Decoder.next))) := by
  funext decoder
  simp only [Codec.uint, Decoder.nextInt, Action.bind_run]
  cases Decoder.next decoder with
  | illegal => rfl
  | fail error after => rfl
  | ok item after =>
    simp only [uintProject]
    cases item.asInt bits with
    | illegal => rfl
    | fail error => rfl
    | ok value =>
      by_cases bound : value < 2 ^ bits
      · simp [bound]
      · simp [bound, Action.attempt, Action.illegal]

theorem uintProject_eq_ok {bits : Nat} {item : Item} {value : Fin (2 ^ bits)}
    (narrow : bits ≤ 256) : uintProject bits item = .ok value ↔
      item.kind = .bytes ∧ item.payload.bytes = minimalBytes value.val := by
  constructor
  · intro run
    obtain ⟨raw, rawRun, run⟩ := Checked.bind_eq_ok.mp run
    obtain ⟨kindEq, payloadEq, bound⟩ := asInt_eq_ok narrow rawRun
    rw [dif_pos bound] at run
    cases run
    exact ⟨kindEq, payloadEq⟩
  · rintro ⟨kindEq, payloadEq⟩
    simp [uintProject, asInt_minimalBytes value.isLt narrow kindEq payloadEq]

theorem minimalBytes_singleton {value : Nat} (one : byteWidth value = 1) :
    minimalBytes value = [UInt8.ofNat value] := by
  rw [minimalBytes, one]
  rfl

theorem uint_encodedLen (bits : Nat) (narrow : bits ≤ 256) (value : Fin (2 ^ bits)) :
    (Codec.uint bits).encodedLen value =
      lengthResult (bytesItem (minimalBytes value.val)).length := by
  have widthLe : byteWidth value.val ≤ 32 := by
    rw [byteWidth_le_iff, show (256 : Nat) ^ 32 = 2 ^ 256 by norm_num]
    exact lt_of_lt_of_le value.isLt (Nat.pow_le_pow_right (by norm_num) narrow)
  simp only [Codec.uint, significantBytes_eq]
  by_cases zero : value.val = 0
  · rw [if_pos zero, zero]
    exact (lengthResult_fits (by rw [usizeMax_eq]; decide)).symm
  rw [if_neg zero]
  by_cases single : byteWidth value.val = 1 ∧ value.val < 0x80
  · have small : UInt8.ofNat value.val < 0x80 := by
      have width := single.2
      rw [UInt8.lt_iff_toNat_lt, UInt8.toNat_ofNat', show (0x80 : UInt8).toNat = 0x80 from rfl]
      omega
    rw [if_pos single, minimalBytes_singleton single.1, bytesItem_single small]
    exact (lengthResult_fits (by rw [usizeMax_eq]; simp)).symm
  · have notSingle : ∀ byte, minimalBytes value.val = [byte] → ¬ byte < 0x80 := by
      intro byte only small
      have width : byteWidth value.val = 1 := by
        have length := minimalBytes_length value.val
        rw [only] at length
        exact length.symm
      refine single ⟨width, ?_⟩
      have valueEq := beValue_minimalBytes value.val
      rw [only] at valueEq
      simp only [beValue, List.foldl_cons, List.foldl_nil] at valueEq
      rw [UInt8.lt_iff_toNat_lt] at small
      simp at small
      omega
    rw [if_neg single, lengthPrefixLen_eq (by rw [usizeMax_eq]; omega) 0x80 0xb7,
      bytesItem_eq notSingle, List.length_append, minimalBytes_length]
    rfl

def uint (bits : Nat) (narrow : bits ≤ 256) : LawfulCodec (Codec.uint bits) where
  encode value := bytesItem (minimalBytes value.val)
  cost _ := .item
  levels := 0
  encodedLen_eq := uint_encodedLen bits narrow
  writes value _ := Encoder.uint_writes value.isLt narrow
  item value := ⟨.bytes, minimalBytes value.val, rfl⟩
  visits _ := Nat.le_refl _
  visits_le value := itemBytes_length_pos .bytes _
  reads := by
    rw [uint_decodeFrom]
    exact scalar_reads fun item value kindEq payloadEq =>
      (uintProject_eq_ok narrow).mpr ⟨kindEq, payloadEq⟩
  sound := by
    rw [uint_decodeFrom]
    exact scalar_sound fun item value run => (uintProject_eq_ok narrow).mp run

end LawfulCodec

end EvmZig.Rlp
