import EvmZig.Rlp.LawfulCodec

/-!
# Lawful lists and structs

The list codec of a lawful codec and the struct codec of lawful fields are
lawful: the scan ahead counts the items that the fill then reads, and a body
that reads its payload to the end fixes the payload.
-/

set_option autoImplicit false

namespace EvmZig.Rlp

open Zig

variable {budget : Budget} {count : Nat} {input : Slice}

/-! ## List bodies -/

section Bodies

variable {α : Type}

/-- `body` reads a list payload to its end. -/
def ReadsAll (body : Action Decoder DecodeError α) (encode : α → List UInt8) (cost : α → Cost)
    (levels : Nat) : Prop :=
  ∀ (value : α) (payload : Slice) (budget : Budget) (depth : Nat),
    payload.bytes = encode value → budget.Affords depth (cost value) levels →
    ∃ after, body ⟨Cursor.init payload, budget, depth⟩ = .ok value after ∧
      after.budget = budget.charge (cost value)

/-- A payload that `body` accepts is the whole encoding of its value. -/
def SoundAll (body : Action Decoder DecodeError α) (encode : α → List UInt8) (cost : α → Cost) :
    Prop :=
  ∀ {payload : Slice} {budget : Budget} {depth : Nat} {value : α} {after : Decoder},
    body ⟨Cursor.init payload, budget, depth⟩ = .ok value after →
      payload.bytes = encode value ∧ after.budget = budget.charge (cost value) ∧
      budget.allocatedBytes + (cost value).bytes ≤ max budget.allocatedBytes usizeMax

theorem inList_reads {body : Action Decoder DecodeError α} {encode : α → List UInt8}
    {cost : α → Cost} {levels : Nat} (reads : ReadsAll body encode cost levels) :
    Reads (Decoder.inList body) (fun value => listItem (encode value))
      (fun value => .item + cost value) (levels + 1) := by
  intro value input before rest budget depth content affords
  obtain ⟨item, run, kindEq, payloadEq⟩ := next_reads .list content affords
  have inner := (affords.right (Nat.le_refl _)).deeper
  obtain ⟨after, bodyRun, charged⟩ := reads value item.payload _ _ payloadEq inner
  have nesting := affords.nesting
  have listRun : item.listCursor = .ok (Cursor.init item.payload) := by
    cases item with
    | bytes span => cases kindEq
    | list span => rfl
  have inUsize : ¬ usizeMax < depth + 1 := by omega
  have inLimits : ¬ (budget.charge .item).limits.maxDepth < depth + 1 := by
    rw [Budget.charge_limits]
    omega
  simp only [Decoder.inList, Decoder.nextList, Action.bind_run, run, listRun, Action.attempt_ok,
    Action.read_run, id_eq, if_neg inUsize, if_neg inLimits,
    Action.pure_run, bodyRun, charged, Budget.charge_charge]
  rfl

theorem inList_sound {body : Action Decoder DecodeError α} {encode : α → List UInt8}
    {cost : α → Cost} (sound : SoundAll body encode cost) :
    Sound (Decoder.inList body) (fun value => listItem (encode value))
      (fun value => .item + cost value) := by
  intro decoder after value run inside
  simp only [Decoder.inList, Decoder.nextList, Action.bind_run] at run
  cases nextRun : Decoder.next decoder with
  | illegal => simp [nextRun] at run
  | fail error middle => simp [nextRun] at run
  | ok item middle =>
    have consumed := next_sound nextRun
    simp only [nextRun] at run
    cases item with
    | bytes span => simp [Item.listCursor] at run
    | list span =>
      simp only [Item.listCursor, Action.attempt_ok, Action.read_run, id_eq] at run
      by_cases wide : usizeMax < middle.depth + 1
      · simp [wide, Action.bind_run] at run
      by_cases deep : middle.budget.limits.maxDepth < middle.depth + 1
      · simp [wide, deep, Action.bind_run] at run
      simp only [if_neg wide, if_neg deep, Action.pure_run] at run
      cases bodyRun : body ⟨Cursor.init span.payload, middle.budget, middle.depth + 1⟩ with
      | illegal => simp [bodyRun] at run
      | fail error last => simp [bodyRun] at run
      | ok result last =>
        simp only [bodyRun, Outcome.ok.injEq] at run
        obtain ⟨rfl, rfl⟩ := run
        obtain ⟨payloadEq, charged, allocated⟩ := sound bodyRun
        have middleBudget := consumed.budget
        rw [middleBudget] at charged allocated
        simp only [Item.kind, Item.payload, payloadEq] at consumed
        refine ⟨consumed.inside, consumed.window, consumed.cursor, ?_, consumed.depth, ?_⟩
        · simp only [charged, Budget.charge_charge]
        · simpa [Budget.charge] using allocated

end Bodies

/-! ## Lists -/

section Lists

variable {α : Type} {element : Codec α} (law : LawfulCodec element)

/-- The items of a list, joined. -/
def joined (values : List α) : List UInt8 := values.flatMap law.encode

def costs (values : List α) : Cost := (values.map law.cost).sum

@[simp] theorem joined_nil : joined law [] = [] := rfl

@[simp] theorem joined_cons (value : α) (values : List α) :
    joined law (value :: values) = law.encode value ++ joined law values := rfl

@[simp] theorem costs_nil : costs law [] = 0 := rfl

@[simp] theorem costs_cons (value : α) (values : List α) :
    costs law (value :: values) = law.cost value + costs law values := rfl

theorem LawfulCodec.encode_length_pos (value : α) : 0 < (law.encode value).length :=
  Nat.lt_of_lt_of_le (law.visits value) (law.visits_le value)

theorem length_le_costs (values : List α) : values.length ≤ (costs law values).items := by
  induction values with
  | nil => exact Nat.le_refl _
  | cons value values ih =>
      have visits := law.visits value
      rw [List.length_cons, costs_cons, Cost.add_items]
      omega

theorem costs_le_joined (values : List α) :
    (costs law values).items ≤ (joined law values).length := by
  induction values with
  | nil => exact Nat.le_refl _
  | cons value values ih =>
      have visits := law.visits_le value
      rw [costs_cons, Cost.add_items, joined_cons, List.length_append]
      omega

/-- A sum of lengths from a start that is a `usize`. -/
theorem lengthResult_add_bind {start length : Nat} {next : Nat → Checked EncodeError Nat}
    {rest : Nat} (nextEq : ∀ total, total ≤ usizeMax → next total = lengthResult (total + rest)) :
    (do next (← checkedAdd start (← lengthResult length))) =
      lengthResult (start + (length + rest)) := by
  by_cases fits : start + length ≤ usizeMax
  · rw [lengthResult_fits (show length ≤ usizeMax by omega)]
    simp only [Checked.ok_bind, checkedAdd_eq, lengthResult_fits fits, nextEq _ fits,
      Nat.add_assoc]
  · have total : ¬ start + (length + rest) ≤ usizeMax := by omega
    by_cases narrow : length ≤ usizeMax
    · simp [lengthResult, checkedAdd, fits, narrow, total]
    · simp [lengthResult, narrow, total]

theorem sequencePayloadLen_eq (values : List α) {start : Nat} (fits : start ≤ usizeMax) :
    Codec.sequencePayloadLen element values start =
      lengthResult (start + (joined law values).length) := by
  induction values generalizing start with
  | nil => exact (lengthResult_fits fits).symm
  | cons value values ih =>
      rw [Codec.sequencePayloadLen, law.encodedLen_eq, joined_cons, List.length_append]
      exact lengthResult_add_bind fun total totalFits => ih totalFits

theorem encodeSequencePayload_writes (values : List α)
    (fits : (joined law values).length ≤ usizeMax) :
    Writes (Codec.encodeSequencePayload element values) (joined law values) := by
  induction values with
  | nil => exact WritesTo.pure ()
  | cons value values ih =>
      rw [joined_cons, List.length_append] at fits
      exact (law.writes value (by omega)).bind (ih (by omega))

theorem scanItems_done {maxItems : Option Nat} {scan : Cursor} (done : scan.isDone = true) :
    Codec.scanItems budget maxItems scan count = .ok count := by
  rw [Codec.scanItems, if_pos done]

theorem scanItems_next {scan after : Cursor} {item : Item} (notDone : scan.isDone = false)
    (run : Cursor.next scan = .ok item after)
    (room : budget.visitedItems + (count + 1) ≤ min budget.limits.maxItems usizeMax) :
    Codec.scanItems budget none scan count = Codec.scanItems budget none after (count + 1) := by
  have counted : ¬ usizeMax < count + 1 := by omega
  rw [Codec.scanItems, if_neg (by simp [notDone])]
  split
  · next error cursor failed => simp [run] at failed
  · next illegal => simp [run] at illegal
  · next parsed cursor nextRun =>
      rw [run] at nextRun
      cases nextRun
      simp only [if_neg counted, Codec.checkCount, Checked.ok_bind,
        Budget.ensureItems_eq_ok.mpr room]

/-- The scan ahead counts the items of the payload. -/
theorem scanItems_run (values : List α) {before : List UInt8}
    (content : input.bytes = before ++ joined law values)
    (room : budget.visitedItems + (count + values.length) ≤ min budget.limits.maxItems usizeMax) :
    Codec.scanItems budget none ⟨input, before.length⟩ count = .ok (count + values.length) := by
  induction values generalizing before count with
  | nil =>
      refine scanItems_done ?_
      simp [Cursor.isDone, Slice.len, content]
  | cons value values ih =>
      obtain ⟨kind, payload, encodeEq⟩ := law.item value
      have positive := law.encode_length_pos value
      rw [joined_cons, ← List.append_assoc] at content
      obtain ⟨item, run, -⟩ := next_embedded kind (by rw [← encodeEq]; exact content)
      have notDone : Cursor.isDone ⟨input, before.length⟩ = false := by
        simp only [Cursor.isDone, Slice.len, content, List.length_append, beq_eq_false_iff_ne]
        omega
      rw [List.length_cons] at room
      rw [scanItems_next notDone run (by omega), ← encodeEq, ← List.length_append,
        ih content (by omega), List.length_cons]
      congr 1
      omega

theorem fillItems_run (values : List α) {before : List UInt8} {depth : Nat}
    (content : input.bytes = before ++ joined law values)
    (affords : budget.Affords depth (costs law values) law.levels) :
    Codec.fillItems element values.length ⟨⟨input, before.length⟩, budget, depth⟩ =
      .ok values ⟨⟨input, input.len⟩, budget.charge (costs law values), depth⟩ := by
  induction values generalizing before budget with
  | nil =>
      have stop : before.length = input.len := by simp [Slice.len, content]
      have done : Decoder.isDone ⟨⟨input, input.len⟩, budget, depth⟩ = true := by
        simp [Decoder.isDone, Cursor.isDone]
      rw [List.length_nil, stop]
      simp only [Codec.fillItems, Action.bind_run, Action.read_run, assert_true done,
        Action.liftM_some]
      rfl
  | cons value values ih =>
      have positive := law.encode_length_pos value
      rw [joined_cons, ← List.append_assoc] at content
      have notDone : Decoder.isDone ⟨⟨input, before.length⟩, budget, depth⟩ = false := by
        simp only [Decoder.isDone, Cursor.isDone, Slice.len, content, List.length_append,
          beq_eq_false_iff_ne]
        omega
      have first := law.reads value input before (joined law values) budget depth content
        (affords.left (Nat.le_refl _))
      have rest := ih content (affords.right (Nat.le_refl _))
      rw [List.length_append] at rest
      simp only [List.length_cons, Codec.fillItems, Action.bind_run, Action.read_run,
        assert_true notDone, Action.liftM_some, first, rest, Action.pure_run,
        Budget.charge_charge, costs_cons]

theorem fillItems_sound {decoder after : Decoder} {values : List α}
    (run : Codec.fillItems element count decoder = .ok values after)
    (inside : decoder.cursor.offset ≤ decoder.cursor.input.len) :
    values.length = count ∧ Consumed (joined law values) (costs law values) decoder after ∧
      after.isDone = true := by
  induction count generalizing decoder values with
  | zero =>
      simp only [Codec.fillItems, Action.bind_run, Action.read_run] at run
      by_cases done : decoder.isDone = true
      · rw [assert_true done] at run
        simp only [Action.liftM_some, Action.pure_run, Outcome.ok.injEq] at run
        obtain ⟨rfl, rfl⟩ := run
        exact ⟨rfl, Consumed.nil inside, done⟩
      · simp [assert, done] at run
  | succ count ih =>
      simp only [Codec.fillItems, Action.bind_run, Action.read_run] at run
      by_cases notDone : decoder.isDone = false
      · rw [assert_true notDone] at run
        simp only [Action.liftM_some] at run
        cases firstRun : element.decodeFrom decoder with
        | illegal => simp [firstRun] at run
        | fail error middle => simp [firstRun] at run
        | ok value middle =>
          have first := law.sound firstRun inside
          simp only [firstRun] at run
          cases restRun : Codec.fillItems element count middle with
          | illegal => simp [restRun] at run
          | fail error last => simp [restRun] at run
          | ok rest last =>
            simp only [restRun, Action.pure_run, Outcome.ok.injEq] at run
            obtain ⟨rfl, rfl⟩ := run
            obtain ⟨length, consumed, done⟩ := ih restRun (by
              rw [first.cursor]
              exact first.inside)
            exact ⟨by rw [List.length_cons, length], first.append consumed, done⟩
      · simp [assert, notDone] at run

/-- A consumed window that reaches the end of its input is the whole input. -/
theorem Consumed.whole {encoded : List UInt8} {cost : Cost} {payload : Slice} {depth : Nat}
    {after : Decoder} (consumed : Consumed encoded cost ⟨Cursor.init payload, budget, depth⟩ after)
    (done : after.isDone = true) : payload.bytes = encoded := by
  have cursor := consumed.cursor
  have window := consumed.window
  simp only [Cursor.init, Nat.zero_add] at cursor window
  have stop : encoded.length = payload.len := by
    simpa [Decoder.isDone, Cursor.isDone, cursor] using done
  rw [stop] at window
  simpa [Slice.window, Slice.len] using window

/-- The body of `ListCodec.decodeAllocFrom` past `nextList`. -/
def listBody (element : Codec α) (maxItems : Option Nat) :
    Action Decoder DecodeError (List α) := do
  let fields ← Action.read id
  let count ← Codec.scanItems fields.budget maxItems fields.cursor 0
  if usizeMax < element.sizeOf * count then
    Action.fail .decodeAllocationLimitExceeded
  let allocationBytes := element.sizeOf * count
  fields.budget.ensureAllocation allocationBytes
  Decoder.setBudget (← fields.budget.commitAllocation allocationBytes)
  Codec.fillItems element count

theorem listBody_reads : ReadsAll (listBody element none) (joined law)
    (fun values => .allocation (element.sizeOf * values.length) + costs law values)
    law.levels := by
  intro values payload budget depth content affords
  have counted := length_le_costs law values
  have items := affords.items
  have bytes := affords.bytes
  simp only [Cost.add_items, Cost.add_bytes, Cost.allocation_items, Cost.allocation_bytes]
    at items bytes
  have scan := scanItems_run law values (show payload.bytes = [] ++ joined law values from content)
    (show budget.visitedItems + (0 + values.length) ≤ _ by omega)
  rw [Nat.zero_add] at scan
  have fill := fillItems_run law values
    (show payload.bytes = [] ++ joined law values from content) (affords.right (Nat.le_refl _))
  have allocates : ¬ usizeMax < element.sizeOf * values.length := by omega
  have ensured := Budget.ensureAllocation_eq_ok.mpr
    (show budget.allocatedBytes + element.sizeOf * values.length ≤ _ by omega)
  have committed := Budget.commitAllocation_eq
    (show budget.allocatedBytes + element.sizeOf * values.length ≤ usizeMax by omega)
  refine ⟨⟨⟨payload, payload.len⟩, _, depth⟩, ?_, rfl⟩
  simp only [List.length_nil] at scan fill
  simp only [listBody, Action.bind_run, Action.read_run, id_eq, Cursor.init, scan,
    Action.liftM_ok, if_neg allocates, ensured, committed, Action.liftM_some, Decoder.setBudget,
    Action.modify_run, fill, Budget.charge_charge]
  rfl

theorem listBody_sound : SoundAll (listBody element none) (joined law)
    (fun values => .allocation (element.sizeOf * values.length) + costs law values) := by
  intro payload budget depth values after run
  simp only [listBody, Action.bind_run, Action.read_run, id_eq] at run
  cases scan : Codec.scanItems budget none (Cursor.init payload) 0 with
  | illegal => simp [scan] at run
  | fail error => simp [scan] at run
  | ok count =>
    simp only [scan, Action.liftM_ok] at run
    by_cases overflows : usizeMax < element.sizeOf * count
    · simp [overflows, Action.bind_run] at run
    simp only [if_neg overflows] at run
    cases ensured : budget.ensureAllocation (element.sizeOf * count) with
    | illegal => simp [ensured, Action.bind_run] at run
    | fail error => simp [ensured, Action.bind_run] at run
    | ok _ =>
      have room := Budget.ensureAllocation_eq_ok.mp ensured
      simp only [ensured, Action.bind_run, Action.liftM_ok, Budget.commitAllocation_eq
        (show budget.allocatedBytes + element.sizeOf * count ≤ usizeMax by omega),
        Action.liftM_some, Decoder.setBudget, Action.modify_run] at run
      obtain ⟨rfl, consumed, done⟩ := fillItems_sound law run (Nat.zero_le _)
      have allocated := consumed.allocated
      simp only [Budget.charge, Cost.allocation_bytes] at allocated
      refine ⟨consumed.whole done, ?_, ?_⟩
      · rw [consumed.budget, Budget.charge_charge]
      · simp only [Cost.add_bytes, Cost.allocation_bytes]
        omega

theorem itemLength_succ_le (payload : List UInt8) :
    payload.length + 1 ≤ (listItem payload).length := by
  rw [listItem_length, lengthPrefix_length]
  split <;> omega

def LawfulCodec.listOf : LawfulCodec (Codec.listOf element) where
  encode values := listItem (joined law values)
  cost values := .item + (.allocation (element.sizeOf * values.length) + costs law values)
  levels := law.levels + 1
  encodedLen_eq values := by
    change (Codec.sequencePayloadLen element values 0 >>= listEncodedLen) = _
    rw [sequencePayloadLen_eq law values (Nat.zero_le _), Nat.zero_add]
    exact listEncodedLen_bind _
  writes values fits := by
    have longer := itemLength_succ_le (joined law values)
    have payloadRun := sequencePayloadLen_eq law values (Nat.zero_le _)
    rw [Nat.zero_add, lengthResult_fits (by omega)] at payloadRun
    have bodyEq : (Codec.listOf element).encodeTo values =
        (Encoder.listPrefix (joined law values).length >>= fun _ =>
          Codec.encodeSequencePayload element values) := by
      funext encoder
      simp only [Codec.listOf, Codec.list, Codec.checkCount, payloadRun, Action.bind_run,
        Action.liftM_ok]
    rw [bodyEq, listItem]
    exact (Encoder.listPrefix_writes (by omega)).bind
      (encodeSequencePayload_writes law values (by omega))
  item values := ⟨.list, joined law values, rfl⟩
  visits values := by simp
  visits_le values := by
    have longer := itemLength_succ_le (joined law values)
    have visited := costs_le_joined law values
    simp only [Cost.add_items, Cost.item_items, Cost.allocation_items]
    omega
  reads := inList_reads (listBody_reads law)
  sound := inList_sound (listBody_sound law)

end Lists

/-! ## Structs -/

structure LawfulFields {φ : Type} (fields : Fields φ) where
  encode : φ → List UInt8
  cost : φ → Cost
  levels : Nat
  encodedLen_eq : ∀ values start, start ≤ usizeMax →
    fields.encodedLen values start = lengthResult (start + (encode values).length)
  writes : ∀ values, (encode values).length ≤ usizeMax →
    Writes (fields.encodeTo values) (encode values)
  visits_le : ∀ values, (cost values).items ≤ (encode values).length
  reads : Reads fields.decodeFrom encode cost levels
  sound : Sound fields.decodeFrom encode cost

namespace LawfulFields

variable {α φ : Type}

def nil : LawfulFields Fields.nil where
  encode _ := []
  cost _ := 0
  levels := 0
  encodedLen_eq _ start fits := (lengthResult_fits fits).symm
  writes _ _ := WritesTo.pure ()
  visits_le _ := Nat.le_refl _
  reads := by
    intro value input before rest budget depth content affords
    rfl
  sound := by
    intro decoder after value run inside
    cases run
    exact Consumed.nil inside

def cons {field : Codec α} {rest : Fields φ} (law : LawfulCodec field)
    (restLaw : LawfulFields rest) : LawfulFields (Fields.cons field rest) where
  encode values := law.encode values.1 ++ restLaw.encode values.2
  cost values := law.cost values.1 + restLaw.cost values.2
  levels := max law.levels restLaw.levels
  encodedLen_eq values start fits := by
    rw [List.length_append]
    simp only [Fields.cons, law.encodedLen_eq]
    exact lengthResult_add_bind fun total totalFits => restLaw.encodedLen_eq values.2 total totalFits
  writes values fits := by
    rw [List.length_append] at fits
    exact (law.writes values.1 (by omega)).bind (restLaw.writes values.2 (by omega))
  visits_le values := by
    have first := law.visits_le values.1
    have others := restLaw.visits_le values.2
    rw [Cost.add_items, List.length_append]
    omega
  reads := law.reads.bind restLaw.reads
  sound := Sound.bind law.sound restLaw.sound

end LawfulFields

section Structs

variable {α φ : Type} {fields : Fields φ} (law : LawfulFields fields) {sizeOf : Nat}
  {toFields : α → φ} {ofFields : φ → α}

theorem structBody_reads (inverse : ∀ value, ofFields (toFields value) = value) :
    ReadsAll (do let value ← fields.decodeFrom; Decoder.expectDone; return ofFields value)
      (fun value => law.encode (toFields value)) (fun value => law.cost (toFields value))
      law.levels := by
  intro value payload budget depth content affords
  have run := law.reads (toFields value) payload [] [] budget depth (by simpa using content) affords
  have stop : (law.encode (toFields value)).length = payload.len := by rw [Slice.len, content]
  simp only [List.length_nil, Nat.zero_add, stop] at run
  refine ⟨⟨⟨payload, payload.len⟩, budget.charge (law.cost (toFields value)), depth⟩, ?_, rfl⟩
  have done : Cursor.expectDone ⟨payload, payload.len⟩ = .ok () := by
    simp [Cursor.expectDone, Cursor.isDone]
  simp only [Cursor.init, Action.bind_run, run, Decoder.expectDone, Action.read_run, done,
    Action.attempt_ok, Action.pure_run, inverse]

theorem structBody_sound (inverse : ∀ values, toFields (ofFields values) = values) :
    SoundAll (do let value ← fields.decodeFrom; Decoder.expectDone; return ofFields value)
      (fun value => law.encode (toFields value)) (fun value => law.cost (toFields value)) := by
  intro payload budget depth value after run
  simp only [Action.bind_run, Decoder.expectDone, Action.read_run] at run
  cases fieldsRun : fields.decodeFrom ⟨Cursor.init payload, budget, depth⟩ with
  | illegal => simp [fieldsRun] at run
  | fail error middle => simp [fieldsRun] at run
  | ok values middle =>
    simp only [fieldsRun] at run
    by_cases done : middle.cursor.isDone = true
    · simp only [Cursor.expectDone, if_pos done, Action.attempt_ok, Action.pure_run,
        Outcome.ok.injEq] at run
      obtain ⟨rfl, rfl⟩ := run
      have consumed := law.sound fieldsRun (Nat.zero_le _)
      simp only [inverse]
      exact ⟨consumed.whole done, consumed.budget, consumed.allocated⟩
    · simp [Cursor.expectDone, done] at run

def LawfulCodec.struct (left : ∀ value, ofFields (toFields value) = value)
    (right : ∀ values, toFields (ofFields values) = values) :
    LawfulCodec (Codec.struct sizeOf fields toFields ofFields) where
  encode value := listItem (law.encode (toFields value))
  cost value := .item + law.cost (toFields value)
  levels := law.levels + 1
  encodedLen_eq value := by
    change (fields.encodedLen (toFields value) 0 >>= listEncodedLen) = _
    rw [law.encodedLen_eq _ _ (Nat.zero_le _), Nat.zero_add]
    exact listEncodedLen_bind _
  writes value fits := by
    have longer := itemLength_succ_le (law.encode (toFields value))
    have payloadRun := law.encodedLen_eq (toFields value) 0 (Nat.zero_le _)
    rw [Nat.zero_add, lengthResult_fits (by omega)] at payloadRun
    have bodyEq : (Codec.struct sizeOf fields toFields ofFields).encodeTo value =
        (Encoder.listPrefix (law.encode (toFields value)).length >>= fun _ =>
          fields.encodeTo (toFields value)) := by
      funext encoder
      simp only [Codec.struct, payloadRun, Action.bind_run, Action.liftM_ok]
    rw [bodyEq, listItem]
    exact (Encoder.listPrefix_writes (by omega)).bind (law.writes _ (by omega))
  item value := ⟨.list, law.encode (toFields value), rfl⟩
  visits value := by simp
  visits_le value := by
    have longer := itemLength_succ_le (law.encode (toFields value))
    have visited := law.visits_le (toFields value)
    simp only [Cost.add_items, Cost.item_items]
    omega
  reads := inList_reads (structBody_reads law left)
  sound := inList_sound (structBody_sound law right)

end Structs

/-! ## Whole inputs -/

section Whole

variable {α : Type} {codec : Codec α} (law : LawfulCodec codec)

theorem encodeAllocAs_eq_ok {value : α} {encoded : Slice} :
    encodeAllocAs codec value = .ok encoded ↔ encoded.bytes = law.encode value := by
  rw [encodeAllocAs, law.encodedLen_eq]
  by_cases fits : (law.encode value).length ≤ usizeMax
  · rw [lengthResult_fits fits, Checked.ok_bind, encodeExact_run (law.writes value fits) fits]
    simp [Slice.ext_iff, eq_comm]
  · have differs : encoded.bytes ≠ law.encode value := by
      intro same
      exact fits (same ▸ encoded.fits)
    simp [lengthResult, fits, differs]

theorem decodeAllocWithBudgetAs_run {value : α} (content : input.bytes = law.encode value)
    (affords : budget.Affords 0 (law.cost value) law.levels) :
    decodeAllocWithBudgetAs codec input budget = .ok (value, budget.charge (law.cost value)) := by
  have run := law.reads value input [] [] budget 0 (by simpa using content) affords
  have stop : (law.encode value).length = input.len := by rw [Slice.len, content]
  simp only [List.length_nil, Nat.zero_add, stop] at run
  have done : Cursor.expectDone ⟨input, input.len⟩ = .ok () := by
    simp [Cursor.expectDone, Cursor.isDone]
  simp only [decodeAllocWithBudgetAs, Decoder.init, Cursor.init, Action.bind_run, run,
    Decoder.expectDone, Action.read_run, done, Action.attempt_ok, Action.pure_run]

theorem decodeAllocWithBudgetAs_sound {value : α} {after : Budget}
    (run : decodeAllocWithBudgetAs codec input budget = .ok (value, after)) :
    input.bytes = law.encode value ∧ after = budget.charge (law.cost value) ∧
      budget.allocatedBytes + (law.cost value).bytes ≤ max budget.allocatedBytes usizeMax := by
  simp only [decodeAllocWithBudgetAs, Action.bind_run, Decoder.expectDone, Action.read_run] at run
  cases decodeRun : codec.decodeFrom (Decoder.init input budget) with
  | illegal => simp [decodeRun] at run
  | fail error middle => simp [decodeRun] at run
  | ok result middle =>
    simp only [decodeRun] at run
    by_cases done : middle.cursor.isDone = true
    · simp only [Cursor.expectDone, if_pos done, Action.attempt_ok, Action.pure_run,
        Checked.ok.injEq, Prod.mk.injEq] at run
      obtain ⟨rfl, rfl⟩ := run
      have consumed := law.sound decodeRun (Nat.zero_le _)
      exact ⟨consumed.whole done, consumed.budget, consumed.allocated⟩
    · simp [Cursor.expectDone, done] at run

end Whole

end EvmZig.Rlp
