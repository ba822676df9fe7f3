import EvmZig.Rlp.LawfulList

/-!
# Decoding under limits

A decode under limits does what the decode under wider limits does, until a
limit stops it; it never visits or allocates more than the limits allow.
-/

set_option autoImplicit false

namespace EvmZig.Rlp

open Zig

/-- The errors of the budget. -/
def DecodeError.isLimit : DecodeError → Bool
  | .decodeAllocationLimitExceeded => true
  | .decodeDepthLimitExceeded => true
  | .decodeItemLimitExceeded => true
  | .parse _ => false
  | .listLimitExceeded => false

/-- One set of limits allows what another allows. -/
structure Limits.Covers (wide narrow : Limits) : Prop where
  depth : narrow.maxDepth ≤ wide.maxDepth
  items : narrow.maxItems ≤ wide.maxItems
  bytes : narrow.maxAllocatedBytes ≤ wide.maxAllocatedBytes

/-- A budget under `limits` that has not exceeded them. -/
structure Budget.Within (limits : Limits) (budget : Budget) : Prop where
  same : budget.limits = limits
  items : budget.visitedItems ≤ limits.maxItems
  bytes : budget.allocatedBytes ≤ limits.maxAllocatedBytes

def Budget.under (wide : Limits) (budget : Budget) : Budget := { budget with limits := wide }

def Decoder.under (wide : Limits) (decoder : Decoder) : Decoder :=
  { decoder with budget := decoder.budget.under wide }

section Following

variable {α β : Type}

/-- The run under wider limits ends as the run does, unless a limit stopped the run. -/
def Follows (limits wide : Limits) (narrow broad : Outcome Decoder DecodeError α) : Prop :=
  match narrow with
  | .ok value after => after.budget.Within limits ∧ broad = .ok value (after.under wide)
  | .fail error after => after.budget.Within limits ∧
      (error.isLimit = true ∨ broad = .fail error (after.under wide))
  | .illegal => broad = .illegal

def Limited (body : Action Decoder DecodeError α) : Prop :=
  ∀ (limits wide : Limits) (decoder : Decoder), wide.Covers limits →
    decoder.budget.Within limits → Follows limits wide (body decoder) (body (decoder.under wide))

theorem Limited.pure (value : α) : Limited (pure value) :=
  fun _ _ _ _ within => ⟨within, rfl⟩

theorem Limited.illegal : Limited (Action.illegal : Action Decoder DecodeError α) :=
  fun _ _ _ _ _ => rfl

/-- An expression that does not touch the decoder. -/
theorem limited_lift (value : Option α) : Limited (liftM value : Action Decoder DecodeError α) := by
  intro limits wide decoder covers within
  cases value with
  | some value => exact ⟨within, rfl⟩
  | none => exact rfl

theorem Limited.attempt {ε : Type} (convert : ε → DecodeError) (value : Checked ε α) :
    Limited (Action.attempt convert value) := by
  intro limits wide decoder covers within
  cases value with
  | ok value => exact ⟨within, rfl⟩
  | fail error => exact ⟨within, .inr rfl⟩
  | illegal => exact rfl

/-- The cursor and the depth do not depend on the limits. -/
theorem Limited.readSame (projection : Decoder → α)
    (same : ∀ wide decoder, projection (Decoder.under wide decoder) = projection decoder) :
    Limited (Action.read projection) := by
  intro limits wide decoder covers within
  refine ⟨within, ?_⟩
  rw [Action.read_run, same]

theorem Limited.bind {first : Action Decoder DecodeError α}
    {second : α → Action Decoder DecodeError β} (firstLimited : Limited first)
    (secondLimited : ∀ value, Limited (second value)) : Limited (first >>= second) := by
  intro limits wide decoder covers within
  have begun := firstLimited limits wide decoder covers within
  rw [Action.bind_run, Action.bind_run]
  cases ran : first decoder with
  | ok value middle =>
      rw [ran] at begun
      obtain ⟨middleWithin, broad⟩ := begun
      rw [broad]
      exact secondLimited value limits wide middle covers middleWithin
  | fail error middle =>
      rw [ran] at begun
      obtain ⟨middleWithin, same⟩ := begun
      refine ⟨middleWithin, same.imp_right fun broad => ?_⟩
      rw [broad]
  | illegal =>
      rw [ran] at begun
      rw [show first (decoder.under wide) = .illegal from begun]
      rfl

end Following

/-! ## Charging -/

section Charging

variable {limits wide : Limits} {budget : Budget}

theorem ensureItems_fails {additional : Nat}
    (full : ¬ budget.visitedItems + additional ≤ min budget.limits.maxItems usizeMax) :
    budget.ensureItems additional = .fail .decodeItemLimitExceeded := by
  unfold Budget.ensureItems
  split
  · rfl
  · rw [if_pos (by omega)]

theorem ensureAllocation_fails {bytes : Nat}
    (full : ¬ budget.allocatedBytes + bytes ≤ min budget.limits.maxAllocatedBytes usizeMax) :
    budget.ensureAllocation bytes = .fail .decodeAllocationLimitExceeded := by
  unfold Budget.ensureAllocation
  split
  · rfl
  · rw [if_pos (by omega)]

theorem ensureItems_follows (covers : wide.Covers limits) (within : budget.Within limits)
    (additional : Nat) :
    budget.ensureItems additional = .ok () ∧ (budget.under wide).ensureItems additional = .ok () ∧
        budget.visitedItems + additional ≤ min limits.maxItems usizeMax ∨
      budget.ensureItems additional = .fail .decodeItemLimitExceeded := by
  have items := covers.items
  by_cases room : budget.visitedItems + additional ≤ min budget.limits.maxItems usizeMax
  · have broad : (budget.under wide).visitedItems + additional ≤
        min (budget.under wide).limits.maxItems usizeMax := by
      rw [within.same] at room
      dsimp only [Budget.under]
      omega
    exact .inl ⟨Budget.ensureItems_eq_ok.mpr room, Budget.ensureItems_eq_ok.mpr broad,
      within.same ▸ room⟩
  · exact .inr (ensureItems_fails room)

theorem ensureAllocation_follows (covers : wide.Covers limits) (within : budget.Within limits)
    (bytes : Nat) :
    budget.ensureAllocation bytes = .ok () ∧ (budget.under wide).ensureAllocation bytes = .ok () ∧
        budget.allocatedBytes + bytes ≤ min limits.maxAllocatedBytes usizeMax ∨
      budget.ensureAllocation bytes = .fail .decodeAllocationLimitExceeded := by
  have allowed := covers.bytes
  by_cases room : budget.allocatedBytes + bytes ≤ min budget.limits.maxAllocatedBytes usizeMax
  · have broad : (budget.under wide).allocatedBytes + bytes ≤
        min (budget.under wide).limits.maxAllocatedBytes usizeMax := by
      rw [within.same] at room
      dsimp only [Budget.under]
      omega
    exact .inl ⟨Budget.ensureAllocation_eq_ok.mpr room, Budget.ensureAllocation_eq_ok.mpr broad,
      within.same ▸ room⟩
  · exact .inr (ensureAllocation_fails room)

end Charging

/-! ## Items -/

theorem onCursor_limited {α : Type} (body : Action Cursor ParseError α) :
    Limited (Decoder.onCursor body) := by
  intro limits wide decoder covers within
  simp only [Decoder.onCursor, Decoder.under]
  cases body decoder.cursor with
  | ok value cursor => exact ⟨within, rfl⟩
  | fail error cursor => exact ⟨within, .inr rfl⟩
  | illegal => exact rfl

/-- The charge of one visited item. -/
theorem visit_limited : Limited (do
    let budget ← Action.read Decoder.budget
    Decoder.setBudget (← budget.commitItems 1)) := by
  intro limits wide decoder covers within
  simp only [Decoder.setBudget, Action.bind_run, Action.read_run, Budget.commitItems]
  rcases ensureItems_follows covers within 1 with ⟨ran, broad, room⟩ | failed
  · have broadRan : (decoder.under wide).budget.ensureItems 1 = .ok () := broad
    have same : (decoder.under wide).budget.visitedItems = decoder.budget.visitedItems := rfl
    rw [ran, broadRan]
    simp only [Checked.ok_bind]
    have items : decoder.budget.visitedItems + 1 ≤ limits.maxItems := by omega
    rw [same, addUsize_eq (by omega)]
    exact ⟨⟨within.same, items, within.bytes⟩, rfl⟩
  · rw [failed]
    exact ⟨within, .inl rfl⟩

theorem next_limited : Limited Decoder.next := by
  have split : Decoder.next = (do
      let value ← Decoder.onCursor Cursor.next
      (do
        let budget ← Action.read Decoder.budget
        Decoder.setBudget (← budget.commitItems 1))
      return value) := by
    simp only [Decoder.next, bind_assoc]
  rw [split]
  exact (onCursor_limited _).bind fun value => visit_limited.bind fun _ => .pure value

theorem nextBytes_limited : Limited Decoder.nextBytes :=
  next_limited.bind fun item => .attempt _ item.asBytes

theorem nextBytesExact_limited (len : Nat) : Limited (Decoder.nextBytesExact len) :=
  next_limited.bind fun item => .attempt _ (item.asBytesExact len)

theorem nextInt_limited (bits : Nat) : Limited (Decoder.nextInt bits) :=
  next_limited.bind fun item => .attempt _ (item.asInt bits)

theorem expectDone_limited : Limited Decoder.expectDone :=
  Limited.bind (.readSame _ fun _ _ => rfl) fun cursor => .attempt _ cursor.expectDone

/-! ## Lists -/

section Lists

variable {α : Type}

/-- A list goes one level deeper, under the same budget. -/
theorem nextList_follows {limits wide : Limits} {decoder : Decoder} (covers : wide.Covers limits)
    (within : decoder.budget.Within limits) :
    (∃ fields after, Decoder.nextList decoder = .ok fields after ∧
        Decoder.nextList (decoder.under wide) = .ok (fields.under wide) (after.under wide) ∧
        fields.budget.Within limits ∧ after.budget.Within limits) ∨
      (∃ error after, Decoder.nextList decoder = .fail error after ∧ after.budget.Within limits ∧
        (error.isLimit = true ∨
          Decoder.nextList (decoder.under wide) = .fail error (after.under wide))) ∨
      (Decoder.nextList decoder = .illegal ∧ Decoder.nextList (decoder.under wide) = .illegal) := by
  have depths := covers.depth
  have items := (next_limited.bind fun item => .attempt DecodeError.parse item.listCursor)
    limits wide decoder covers within
  have split : ∀ start, Decoder.nextList start =
      match (do Action.attempt .parse (← Decoder.next).listCursor) start with
      | .ok childCursor after =>
          if usizeMax < after.depth + 1 then .fail .decodeDepthLimitExceeded after
          else if after.budget.limits.maxDepth < after.depth + 1 then
            .fail .decodeDepthLimitExceeded after
          else .ok ⟨childCursor, after.budget, after.depth + 1⟩ after
      | .fail error after => .fail error after
      | .illegal => .illegal := by
    intro start
    simp only [Decoder.nextList, Action.bind_run]
    cases Decoder.next start with
    | illegal => rfl
    | fail error after => rfl
    | ok item after =>
        dsimp only
        cases item.listCursor with
        | illegal => rfl
        | fail error => rfl
        | ok childCursor =>
            simp only [Action.attempt_ok, Action.read_run, id_eq]
            by_cases wideDepth : usizeMax < after.depth + 1
            · simp [wideDepth, Action.bind_run]
            · by_cases deep : after.budget.limits.maxDepth < after.depth + 1
              · simp [wideDepth, deep, Action.bind_run]
              · simp [wideDepth, deep]
  rw [split, split (decoder.under wide)]
  cases ran : (do Action.attempt DecodeError.parse (← Decoder.next).listCursor) decoder with
  | illegal =>
      rw [ran] at items
      right
      right
      rw [show _ = Outcome.illegal from items]
      exact ⟨rfl, rfl⟩
  | fail error after =>
      rw [ran] at items
      right
      left
      refine ⟨error, after, rfl, items.1, items.2.imp_right fun broad => ?_⟩
      rw [broad]
  | ok childCursor after =>
      rw [ran] at items
      obtain ⟨afterWithin, broad⟩ := items
      rw [broad]
      dsimp only
      have limitsEq := afterWithin.same
      by_cases wideDepth : usizeMax < after.depth + 1
      · right
        left
        exact ⟨.decodeDepthLimitExceeded, after, if_pos wideDepth, afterWithin, .inl rfl⟩
      by_cases deep : after.budget.limits.maxDepth < after.depth + 1
      · right
        left
        refine ⟨.decodeDepthLimitExceeded, after, ?_, afterWithin, .inl rfl⟩
        rw [if_neg wideDepth, if_pos deep]
      left
      have broadDeep : ¬ (after.under wide).budget.limits.maxDepth < (after.under wide).depth + 1 := by
        dsimp only [Decoder.under, Budget.under]
        rw [limitsEq] at deep
        omega
      have broadWide : ¬ usizeMax < (after.under wide).depth + 1 := wideDepth
      rw [if_neg wideDepth, if_neg deep, if_neg broadWide, if_neg broadDeep]
      exact ⟨_, _, rfl, rfl, afterWithin, afterWithin⟩

theorem inList_limited {body : Action Decoder DecodeError α} (limited : Limited body) :
    Limited (Decoder.inList body) := by
  intro limits wide decoder covers within
  rw [Decoder.inList, Decoder.inList]
  rcases nextList_follows covers within with ⟨fields, after, ran, broad, fieldsWithin, afterWithin⟩ |
    ⟨error, after, ran, afterWithin, same⟩ | ⟨ran, broad⟩
  · rw [ran, broad]
    dsimp only
    have inner := limited limits wide fields covers fieldsWithin
    cases bodyRan : body fields with
    | ok value last =>
        rw [bodyRan] at inner
        obtain ⟨lastWithin, broadRan⟩ := inner
        rw [broadRan]
        exact ⟨lastWithin, rfl⟩
    | fail error last =>
        rw [bodyRan] at inner
        obtain ⟨lastWithin, same⟩ := inner
        refine ⟨lastWithin, same.imp_right fun broadRan => ?_⟩
        rw [broadRan]
        rfl
    | illegal =>
        rw [bodyRan] at inner
        rw [show body (fields.under wide) = .illegal from inner]
        exact rfl
  · rw [ran]
    refine ⟨afterWithin, same.imp_right fun broad => ?_⟩
    rw [broad]
  · rw [ran, broad]
    exact rfl

/-- The scan past one item. -/
theorem scanItems_step {budget : Budget} {maxItems : Option Nat} {scan after : Cursor} {item : Item}
    {count : Nat} (notDone : ¬ scan.isDone = true) (run : Cursor.next scan = .ok item after) :
    Codec.scanItems budget maxItems scan count =
      if usizeMax < count + 1 then .fail .decodeItemLimitExceeded
      else (do
        Codec.checkCount DecodeError.listLimitExceeded maxItems (count + 1)
        budget.ensureItems (count + 1)
        Codec.scanItems budget maxItems after (count + 1)) := by
  rw [Codec.scanItems, if_neg notDone]
  split
  · next failed => simp [run] at failed
  · next illegal => simp [run] at illegal
  · next nextRun =>
      rw [run] at nextRun
      cases nextRun
      by_cases wide : usizeMax < count + 1
      · rw [if_pos wide, if_pos wide]
        rfl
      · rw [if_neg wide, if_neg wide]

/-- An item that does not parse ends the scan whatever the limits are. -/
theorem scanItems_stop {budget other : Budget} {maxItems : Option Nat} {scan : Cursor} {count : Nat}
    (notDone : ¬ scan.isDone = true)
    (stops : ∀ item after, Cursor.next scan ≠ .ok item after) :
    Codec.scanItems other maxItems scan count = Codec.scanItems budget maxItems scan count := by
  rw [Codec.scanItems, Codec.scanItems, if_neg notDone, if_neg notDone]
  split
  · rfl
  · rfl
  · next nextRun => exact absurd nextRun (stops _ _)

/-- The scan ahead counts the same items. -/
theorem scanItems_follows {limits wide : Limits} {budget : Budget} (covers : wide.Covers limits)
    (within : budget.Within limits) (maxItems : Option Nat) (scan : Cursor) (count : Nat) :
    Codec.scanItems (budget.under wide) maxItems scan count =
        Codec.scanItems budget maxItems scan count ∨
      ∃ error, Codec.scanItems budget maxItems scan count = .fail error ∧ error.isLimit = true := by
  induction scan, count using Codec.scanItems.induct budget maxItems with
  | case1 scan count done => exact .inl (by rw [scanItems_done done, scanItems_done done])
  | case2 scan count notDone error cursor run =>
      exact .inl (scanItems_stop notDone fun item after ran => by simp [run] at ran)
  | case3 scan count notDone run =>
      exact .inl (scanItems_stop notDone fun item after ran => by simp [run] at ran)
  | case4 scan count notDone item after run wideCount _ =>
      rw [scanItems_step notDone run, scanItems_step notDone run]
      exact .inr ⟨_, if_pos wideCount, rfl⟩
  | case5 scan count notDone item after run wideCount ih =>
      rw [scanItems_step notDone run, scanItems_step notDone run]
      rw [if_neg wideCount, if_neg wideCount]
      cases Codec.checkCount DecodeError.listLimitExceeded maxItems (count + 1) with
      | fail error => exact .inl rfl
      | illegal => exact .inl rfl
      | ok _ =>
          simp only [Checked.ok_bind]
          rcases ensureItems_follows covers within (count + 1) with ⟨ran, broad, _⟩ | failed
          · rw [ran, broad]
            exact ih
          · rw [failed]
            exact .inr ⟨_, rfl, rfl⟩

theorem fillItems_limited {element : Codec α} (limited : Limited element.decodeFrom) (count : Nat) :
    Limited (Codec.fillItems element count) := by
  induction count with
  | zero =>
      apply Limited.bind (.readSame _ fun _ _ => rfl)
      intro done
      exact Limited.bind (limited_lift _) fun _ => .pure []
  | succ count ih =>
      apply Limited.bind (.readSame _ fun _ _ => rfl)
      intro done
      apply Limited.bind (limited_lift _)
      intro _
      exact limited.bind fun value => ih.bind fun rest => .pure (value :: rest)

/-- The allocation of the rows, and the rows. -/
def rowsBody (element : Codec α) (count : Nat) : Action Decoder DecodeError (List α) := do
  let fields ← Action.read id
  let allocationBytes := element.sizeOf * count
  fields.budget.ensureAllocation allocationBytes
  Decoder.setBudget (← fields.budget.commitAllocation allocationBytes)
  Codec.fillItems element count

theorem rowsBody_limited {element : Codec α} (limited : Limited element.decodeFrom) (count : Nat) :
    Limited (rowsBody element count) := by
  intro limits wide decoder covers within
  simp only [rowsBody, Action.bind_run, Action.read_run, id_eq]
  have broadBudget : (decoder.under wide).budget = decoder.budget.under wide := rfl
  rw [broadBudget]
  rcases ensureAllocation_follows covers within (element.sizeOf * count) with
    ⟨ran, broad, room⟩ | failed
  · have fits : decoder.budget.allocatedBytes + element.sizeOf * count ≤ usizeMax := by omega
    have charged : decoder.budget.allocatedBytes + element.sizeOf * count ≤
        limits.maxAllocatedBytes := by omega
    rw [ran, broad, Budget.commitAllocation_eq fits,
      Budget.commitAllocation_eq (show (decoder.budget.under wide).allocatedBytes + _ ≤ _ from fits)]
    exact fillItems_limited limited count limits wide
      { decoder with budget := decoder.budget.charge (.allocation (element.sizeOf * count)) } covers
      ⟨within.same, within.items, charged⟩
  · rw [failed]
    exact ⟨within, .inl rfl⟩

theorem listBody_limited {element : Codec α} (limited : Limited element.decodeFrom)
    (maxItems : Option Nat) : Limited (listBody element maxItems) := by
  intro limits wide decoder covers within
  have split : ∀ start : Decoder, listBody element maxItems start =
      match Codec.scanItems start.budget maxItems start.cursor 0 with
      | .ok count =>
          if usizeMax < element.sizeOf * count then .fail .decodeAllocationLimitExceeded start
          else rowsBody element count start
      | .fail error => .fail error start
      | .illegal => .illegal := by
    intro start
    simp only [listBody, Action.bind_run, Action.read_run, id_eq]
    cases Codec.scanItems start.budget maxItems start.cursor 0 with
    | illegal => rfl
    | fail error => rfl
    | ok count =>
        simp only [Action.liftM_ok]
        by_cases wideSize : usizeMax < element.sizeOf * count
        · rw [if_pos wideSize, if_pos wideSize]
          rfl
        · rw [if_neg wideSize, if_neg wideSize]
          rfl
  rw [split, split (decoder.under wide)]
  rcases scanItems_follows covers within maxItems decoder.cursor 0 with same | ⟨error, failed, limit⟩
  · have broad : Codec.scanItems (decoder.under wide).budget maxItems (decoder.under wide).cursor 0 =
        Codec.scanItems decoder.budget maxItems decoder.cursor 0 := same
    rw [broad]
    cases Codec.scanItems decoder.budget maxItems decoder.cursor 0 with
    | illegal => exact rfl
    | fail error => exact ⟨within, .inr rfl⟩
    | ok count =>
        dsimp only
        by_cases wideSize : usizeMax < element.sizeOf * count
        · rw [if_pos wideSize, if_pos wideSize]
          exact ⟨within, .inl rfl⟩
        · rw [if_neg wideSize, if_neg wideSize]
          exact rowsBody_limited limited count limits wide decoder covers within
  · rw [failed]
    exact ⟨within, .inl limit⟩

theorem list_limited {element : Codec α} (limited : Limited element.decodeFrom)
    (maxItems : Option Nat) : Limited (Codec.list element maxItems).decodeFrom :=
  inList_limited (listBody_limited limited maxItems)

end Lists

/-! ## Scalars and structs -/

theorem bytes_limited : Limited Codec.bytes.decodeFrom := nextBytes_limited

theorem fixedBytes_limited (len : Nat) (fits : len ≤ usizeMax) :
    Limited (Codec.fixedBytes len fits).decodeFrom := by
  apply (nextBytesExact_limited len).bind
  intro bytes
  split
  · exact .pure _
  · exact .illegal

theorem uint_limited (bits : Nat) : Limited (Codec.uint bits).decodeFrom := by
  apply (nextInt_limited bits).bind
  intro value
  split
  · exact .pure _
  · exact .illegal

section Structs

variable {α φ : Type}

theorem Fields.nil_limited : Limited Fields.nil.decodeFrom := .pure ()

theorem Fields.cons_limited {field : Codec α} {rest : Fields φ} (first : Limited field.decodeFrom)
    (others : Limited rest.decodeFrom) : Limited (Fields.cons field rest).decodeFrom :=
  first.bind fun value => others.bind fun values => .pure (value, values)

theorem struct_limited {fields : Fields φ} (limited : Limited fields.decodeFrom) (sizeOf : Nat)
    (toFields : α → φ) (ofFields : φ → α) :
    Limited (Codec.struct sizeOf fields toFields ofFields).decodeFrom :=
  inList_limited (limited.bind fun value => expectDone_limited.bind fun _ => .pure (ofFields value))

end Structs

end EvmZig.Rlp
